import EmbedQuery.Embedding.Json
import EmbedQuery.Proofs.Embedding.Composition
import EmbedQuery.Proofs.Json.RoundTrip

/-!
# Trees in JSON

The text of a tree is written from its numbered parts: the children of a table are looked up by
their numbers and written into it (`EmbeddingArena.Writes`). It is the text of the nested tree
(`EmbeddingTree.prints_arena_iff`), and of the trees without errors no two have the same text
(`Resolver.jsonText_injective`): the text tells the value, the value tells every member of every
table in it, and the nesting tells the numbers. An error is written as its kind and message only.
-/

namespace EmbedQuery

open Json EmbeddingArena

/-! ### Values are well formed -/

theorem Relationship.wellFormed_toJson (r : Relationship) : r.toJson.WellFormed :=
  wellFormed_record (by simp [wellFormed_ofText, wellFormed_ofNat])

theorem Field.wellFormed_toJson (f : Field) : f.toJson.WellFormed :=
  wellFormed_record (by simp [wellFormed_ofText, wellFormed_ofText?, WellFormed])

theorem EmbedError.wellFormed_toJson (e : EmbedError) : e.toJson.WellFormed :=
  wellFormed_record (by simp [wellFormed_ofText])

theorem Embedding.wellFormed_toJson (e : Embedding) {children : List Json}
    (h : ∀ child ∈ children, child.WellFormed) : (e.toJson children).WellFormed := by
  refine wellFormed_record ?_
  simp only [List.forall_mem_cons]
  refine ⟨wellFormed_ofText _, wellFormed_ofText _, wellFormed_ofText? _, wellFormed_ofText _,
    trivial, wellFormed_ofText _, ?_, wellFormed_array ?_, wellFormed_array h, by simp⟩
  · split
    · trivial
    · exact Relationship.wellFormed_toJson _
  · simp [Field.wellFormed_toJson]

mutual

theorem EmbeddingNode.wellFormed_toJson : ∀ node : EmbeddingNode, node.toJson.WellFormed
  | .resolved embedding children => by
    rw [EmbeddingNode.toJson]
    exact embedding.wellFormed_toJson (wellFormed_nodesToJson children)
  | .failed key error => by
    rw [EmbeddingNode.toJson]
    exact wellFormed_record (by simp [wellFormed_ofText?, error.wellFormed_toJson])

theorem wellFormed_nodesToJson :
    ∀ nodes : List EmbeddingNode, ∀ value ∈ nodesToJson nodes, value.WellFormed
  | [] => by simp [nodesToJson]
  | node :: nodes => by
    rw [nodesToJson, List.forall_mem_cons]
    exact ⟨node.wellFormed_toJson, wellFormed_nodesToJson nodes⟩

end

/-! ### Values tell what they are written for -/

theorem Direction.name_injective : Function.Injective Direction.name := by
  intro d d' h
  cases d <;> cases d' <;> first | rfl | exact absurd h (by decide)

theorem Cardinality.name_injective : Function.Injective Cardinality.name := by
  intro c c' h
  cases c <;> cases c' <;> first | rfl | exact absurd h (by decide)

theorem JoinModifier.label_injective : Function.Injective JoinModifier.label := by
  intro j j' h
  cases j <;> cases j' <;> first | rfl | exact absurd h (by decide)

theorem Aggregate.name_injective : Function.Injective Aggregate.name := by
  intro a a' h
  cases a <;> cases a' <;> first | rfl | exact absurd h (by decide)

theorem Relationship.toJson_injective : Function.Injective Relationship.toJson := by
  intro r r' h
  obtain ⟨position, constraint, direction, cardinality, candidates⟩ := r
  obtain ⟨position', constraint', direction', cardinality', candidates'⟩ := r'
  simpa [Relationship.toJson, record, Direction.name_injective.eq_iff,
    Cardinality.name_injective.eq_iff] using h

theorem Field.toJson_injective : Function.Injective Field.toJson := by
  intro f f' h
  obtain ⟨key, column, cast, aggregate, nullable⟩ := f
  obtain ⟨key', column', cast', aggregate', nullable'⟩ := f'
  simpa [Field.toJson, record, (Option.map_injective Aggregate.name_injective).eq_iff] using h

/-- The object of a table tells the table and the values of its children. -/
theorem Embedding.toJson_inj {e e' : Embedding} {children children' : List Json}
    (h : e.toJson children = e'.toJson children') : e = e' ∧ children = children' := by
  obtain ⟨key, table, label, cardinality, nullable, join, relationship, fields⟩ := e
  obtain ⟨key', table', label', cardinality', nullable', join', relationship', fields'⟩ := e'
  simp only [Embedding.toJson, record, List.map_cons, List.map_nil, object.injEq, List.cons.injEq,
    Prod.mk.injEq, true_and, and_true, ofText_inj, ofText?_inj, bool.injEq, array.injEq,
    Cardinality.name_injective.eq_iff, JoinModifier.label_injective.eq_iff,
    (List.map_injective_iff.2 Field.toJson_injective).eq_iff] at h
  obtain ⟨rfl, rfl, rfl, rfl, rfl, rfl, hrelationship, rfl, rfl⟩ := h
  have hsame : relationship = relationship' := by
    cases relationship with
    | none =>
      cases relationship' with
      | none => rfl
      | some r' => cases hrelationship
    | some r =>
      cases relationship' with
      | none => cases hrelationship
      | some r' => exact congrArg some (Relationship.toJson_injective hrelationship)
  exact ⟨by rw [hsame], rfl⟩

mutual

/-- The value of a part without errors tells the part. -/
theorem EmbeddingNode.toJson_inj : ∀ {node node' : EmbeddingNode}, node.errors = [] →
    node'.errors = [] → node.toJson = node'.toJson → node = node'
  | .resolved e children, .resolved e' children', hclean, hclean', h => by
    rw [EmbeddingNode.errors] at hclean hclean'
    rw [EmbeddingNode.toJson, EmbeddingNode.toJson] at h
    obtain ⟨rfl, hchildren⟩ := Embedding.toJson_inj h
    rw [nodesToJson_inj hclean hclean' hchildren]
  | .failed _ _, _, hclean, _, _ => by cases hclean
  | .resolved _ _, .failed _ _, _, hclean', _ => by cases hclean'

theorem nodesToJson_inj : ∀ {nodes nodes' : List EmbeddingNode}, nodeErrors nodes = [] →
    nodeErrors nodes' = [] → nodesToJson nodes = nodesToJson nodes' → nodes = nodes'
  | [], [], _, _, _ => rfl
  | [], _ :: _, _, _, h => by cases h
  | _ :: _, [], _, _, h => by cases h
  | node :: nodes, node' :: nodes', hclean, hclean', h => by
    rw [nodeErrors, List.append_eq_nil_iff] at hclean hclean'
    rw [nodesToJson, nodesToJson, List.cons.injEq] at h
    rw [EmbeddingNode.toJson_inj hclean.1 hclean'.1 h.1,
      nodesToJson_inj hclean.2 hclean'.2 h.2]

end

theorem EmbeddingTree.wellFormed_toJson (t : EmbeddingTree) : t.toJson.WellFormed :=
  t.root.wellFormed_toJson (wellFormed_nodesToJson t.children)

/-- The text of a tree without errors tells the tree. -/
theorem EmbeddingTree.jsonText_inj {t t' : EmbeddingTree} (hclean : t.errors = [])
    (hclean' : t'.errors = []) {compact : Bool} (h : t.jsonText compact = t'.jsonText compact) :
    t = t' := by
  have hvalue : t.toJson = t'.toJson :=
    render_injective t.wellFormed_toJson t'.wellFormed_toJson (String.ofList_inj.1 h)
  obtain ⟨root, children⟩ := t
  obtain ⟨root', children'⟩ := t'
  obtain ⟨rfl, hchildren⟩ := Embedding.toJson_inj hvalue
  exact congrArg (EmbeddingTree.mk root) (nodesToJson_inj hclean hclean' hchildren)

/-! ### Writing from the numbered parts -/

namespace EmbeddingArena

/-- The values of the parts of given numbers, in which children are looked up by their numbers. -/
inductive Writes (nodes : List Node) : List Nat → List Json → Prop
  | nil : Writes nodes [] []
  | resolved {id : Nat} {e : Embedding} {children ids : List Nat} {inner values : List Json}
      (hnode : nodes[id]? = some (.resolved e children)) (hinner : Writes nodes children inner)
      (hmore : Writes nodes ids values) : Writes nodes (id :: ids) (e.toJson inner :: values)
  | failed {id : Nat} {key : Option String} {error : EmbedError} {ids : List Nat}
      {values : List Json} (hnode : nodes[id]? = some (.failed key error))
      (hmore : Writes nodes ids values) :
      Writes nodes (id :: ids) (record [("key", ofText? key), ("error", error.toJson)] :: values)

/-- The JSON text of a numbered tree, on one line or over several. -/
def Prints (a : EmbeddingArena) (compact : Bool) (text : String) : Prop :=
  ∃ values, Writes a.nodes a.children values ∧
    text = String.ofList ((a.root.toJson values).render (if compact then .line else .lines 0))

/-- Parts of given numbers are written in one way only. -/
theorem Writes.unique {nodes : List Node} {ids : List Nat} {values values' : List Json}
    (h : Writes nodes ids values) (h' : Writes nodes ids values') : values' = values := by
  induction h generalizing values' with
  | nil =>
    cases h'
    rfl
  | resolved hnode _ _ ihinner ihmore =>
    cases h' with
    | resolved hnode' hinner hmore =>
      cases hnode.symm.trans hnode'
      rw [ihinner hinner, ihmore hmore]
    | failed hnode' => cases hnode.symm.trans hnode'
  | failed hnode _ ih =>
    cases h' with
    | resolved hnode' => cases hnode.symm.trans hnode'
    | failed hnode' hmore =>
      cases hnode.symm.trans hnode'
      rw [ih hmore]

theorem Writes.append {nodes : List Node} {ids more : List Nat} {values values' : List Json}
    (h : Writes nodes ids values) (h' : Writes nodes more values') :
    Writes nodes (ids ++ more) (values ++ values') := by
  induction h with
  | nil => exact h'
  | resolved hnode hinner _ _ ihmore => exact .resolved hnode hinner ihmore
  | failed hnode _ ih => exact .failed hnode ih

end EmbeddingArena

mutual

theorem EmbeddingNode.writes_flatten : ∀ (front back : List Node) (node : EmbeddingNode),
    Writes (front ++ node.flatten front.length ++ back) [front.length + node.size - 1]
      [node.toJson]
  | front, back, .resolved embedding children => by
    have hchildren := writes_flattenNodes front
      (.resolved embedding (flattenNodes front.length children).1 :: back) children
    rw [EmbeddingNode.toJson, EmbeddingNode.flatten_resolved, EmbeddingNode.size]
    simp only [List.append_assoc, List.cons_append, List.nil_append] at hchildren ⊢
    refine .resolved ?_ hchildren .nil
    simp [← length_flattenNodes front.length]
  | front, back, .failed key error => by
    rw [EmbeddingNode.toJson]
    refine .failed ?_ .nil
    simp [EmbeddingNode.flatten, EmbeddingNode.size]

/-- The values of parts that stand in a row are those of the nested parts. -/
theorem writes_flattenNodes : ∀ (front back : List Node) (nodes : List EmbeddingNode),
    Writes (front ++ (flattenNodes front.length nodes).2 ++ back)
      (flattenNodes front.length nodes).1 (nodesToJson nodes)
  | _, _, [] => .nil
  | front, back, node :: nodes => by
    have hnode := node.writes_flatten front
      ((flattenNodes (front.length + node.size) nodes).2 ++ back)
    have hnodes := writes_flattenNodes (front ++ node.flatten front.length) back nodes
    rw [List.length_append, node.length_flatten] at hnodes
    rw [flattenNodes_cons, nodesToJson]
    simp only [List.append_assoc] at hnode hnodes ⊢
    exact hnode.append hnodes

end

/-- The text of a numbered tree is that of the nested one. -/
theorem EmbeddingTree.prints_arena_iff (t : EmbeddingTree) {compact : Bool} {text : String} :
    t.arena.Prints compact text ↔ text = t.jsonText compact := by
  have hwalk : Writes t.arena.nodes t.arena.children (nodesToJson t.children) := by
    have hwalk := writes_flattenNodes [] [] t.children
    rwa [List.append_nil, List.nil_append] at hwalk
  constructor
  · rintro ⟨values, hvalues, rfl⟩
    rw [hwalk.unique hvalues]
    rfl
  · intro h
    exact ⟨_, hwalk, h⟩

/-- The JSON text of a tree, which is written from its numbered parts, loses nothing: two trees that
were resolved without an error, from whatever catalogs, tables and queries, are one tree if they
have the same text in one of the layouts, and their numbered trees are one. -/
theorem Resolver.jsonText_injective {r r' : Resolver} {root root' : String}
    {query query' : QueryTree} {t t' : EmbeddingTree} (h : r.resolve root query = .ok t)
    (h' : r'.resolve root' query' = .ok t') (hclean : t.errors = []) (hclean' : t'.errors = [])
    (compact : Bool) :
    r.compose root query = .ok t.arena ∧ r'.compose root' query' = .ok t'.arena ∧
      (∀ text, t.arena.Prints compact text ↔ text = t.jsonText compact) ∧
      (∀ text, t'.arena.Prints compact text ↔ text = t'.jsonText compact) ∧
      (t.jsonText compact = t'.jsonText compact → t = t' ∧ t.arena = t'.arena) := by
  refine ⟨by rw [compose_eq, h]; rfl, by rw [compose_eq, h']; rfl, fun _ => t.prints_arena_iff,
    fun _ => t'.prints_arena_iff, fun htext => ?_⟩
  obtain rfl := EmbeddingTree.jsonText_inj hclean hclean' htext
  exact ⟨rfl, rfl⟩

/-- The departments of managers, and the departments alone. -/
theorem Resolver.jsonText_injective_staff :
    ∃ t t', Resolver.resolve { catalog := .staff } "employees" ⟨[.managers]⟩ = .ok t ∧
      Resolver.resolve { catalog := .staff } "departments" ⟨[]⟩ = .ok t' ∧
      t.errors = [] ∧ t'.errors = [] ∧
      Resolver.compose { catalog := .staff } "employees" ⟨[.managers]⟩ = .ok t.arena ∧
      Resolver.compose { catalog := .staff } "departments" ⟨[]⟩ = .ok t'.arena ∧
      (∀ text, t.arena.Prints true text ↔ text = t.jsonText true) ∧
      (∀ text, t'.arena.Prints true text ↔ text = t'.jsonText true) ∧
      (t.jsonText true = t'.jsonText true → t = t' ∧ t.arena = t'.arena) := by
  let r : Resolver := { catalog := .staff }
  have hemployees : r.catalog.table? "employees" = some Catalog.staff.tables[1] := rfl
  have hdepartments : r.catalog.table? "departments" = some Catalog.staff.tables[0] := rfl
  obtain ⟨t, ht, hchildren⟩ := resolve_of_table hemployees ⟨[.managers]⟩
  obtain ⟨t', ht', hchildren'⟩ := resolve_of_table hdepartments ⟨[]⟩
  have hclean : t.errors = [] := by
    rw [EmbeddingTree.errors, hchildren, errors_selectQuery_iff (r := r) rfl,
      List.forall_mem_singleton]
    refine .block (w := ⟨0, Catalog.staff.foreignKeys[0], .forward⟩) (by decide) ?_
    rw [List.forall_mem_cons, List.forall_mem_singleton]
    refine ⟨.count _ _ _ _, ?_⟩
    refine .block (w := ⟨1, Catalog.staff.foreignKeys[1], .forward⟩) (by decide) ?_
    exact List.forall_mem_singleton.2 (.wildcard _ _)
  have hclean' : t'.errors = [] := by
    rw [EmbeddingTree.errors, hchildren']
    rfl
  exact ⟨t, t', ht, ht', hclean, hclean',
    Resolver.jsonText_injective ht ht' hclean hclean' true⟩

end EmbedQuery
