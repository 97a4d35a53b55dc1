import EmbedQuery.Proofs.Embedding.Gaps

/-!
# Join modifiers and aliases

What a resource is joined by and what it is called concern the part it becomes and no other. Where
the modifier or the alias of a resource anywhere in a query is replaced, the numbered tree changes
under one number at most: there, a modifier changes the join and whether the table may be missing,
and an alias changes the key and the alias, or the key of an error (`Resolver.modifiers_local`).

The resource stands in a gap of the query (`QueryTree.exists_gap`), so what it becomes stands in a
gap of the selection (`Resolver.selectList_fill`). Its size stays the same, and so do all numbers.
-/

namespace EmbedQuery

/-- A change of one part, whatever is in it: of a table, or of the key of an error. -/
structure PartChange where
  embedding : Embedding → Embedding := id
  key : Option String → Option String := id

namespace PartChange

/-- The change of a numbered part. -/
def part (c : PartChange) : EmbeddingArena.Node → EmbeddingArena.Node
  | .resolved embedding children => .resolved (c.embedding embedding) children
  | .failed key error => .failed (c.key key) error

/-- The change of a part with all that is in it. -/
def node (c : PartChange) : EmbeddingNode → EmbeddingNode
  | .resolved embedding children => .resolved (c.embedding embedding) children
  | .failed key error => .failed (c.key key) error

/-- Another alias, or none, for the resource of that name. -/
def relabel (name : String) (label : Option String) : PartChange where
  embedding e := { e with key := label.getD name, label }
  key _ := some (label.getD name)

end PartChange

/-- Another join. What may be missing is decided anew, by the relationship that is there. -/
def Resolver.rejoin (r : Resolver) (join : JoinModifier) : PartChange where
  embedding e := { e with join, nullable := e.relationship.any (r.mayBeMissing · join) }

/-- The tree with one change, of the part with the number `id`. -/
def EmbeddingArena.change (a : EmbeddingArena) (id : Nat) (c : PartChange) : EmbeddingArena :=
  { a with nodes := a.nodes.modify id c.part }

/-- A part is the resource as it was written, or an error with its key. -/
def EmbeddingArena.Node.StandsFor (resource : Resource) : Node → Prop
  | resolved e _ =>
    e.key = resource.key ∧ e.table = resource.name ∧ e.label = resource.label ∧
      e.join = resource.join
  | failed key _ => key = some resource.key

/-- A resource in a gap, with its list, becomes the part with the number `id` of the tree. Another
modifier or another alias for it changes this part only. -/
structure Resolver.BecomesPart (r : Resolver) (root : String) (gap : Gap)
    (list : Option (List SelectItem)) (resource : Resource) (t : EmbeddingTree) (id : Nat) :
    Prop where
  tree : r.resolve root (gap.query list resource) = .ok t
  part : ∃ part, t.arena.nodes[id]? = some part ∧ part.StandsFor resource
  rejoin : ∀ join, ∃ t', r.resolve root (gap.query list { resource with join }) = .ok t' ∧
    t'.arena = t.arena.change id (r.rejoin join)
  relabel : ∀ label, ∃ t', r.resolve root (gap.query list { resource with label }) = .ok t' ∧
    t'.arena = t.arena.change id (.relabel resource.name label)

namespace EmbeddingNode

/-- The part itself, if the parts in it are numbered from `next` on. -/
def own (next : Nat) : EmbeddingNode → EmbeddingArena.Node
  | resolved embedding children => .resolved embedding (flattenNodes next children).1
  | failed key error => .failed key error

/-- The parts in the part. -/
def inside (next : Nat) : EmbeddingNode → List EmbeddingArena.Node
  | resolved _ children => (flattenNodes next children).2
  | failed .. => []

theorem flatten_eq_inside_append (next : Nat) (node : EmbeddingNode) :
    node.flatten next = node.inside next ++ [node.own next] := by
  cases node <;> rfl

variable (c : PartChange) (next : Nat) (node : EmbeddingNode)

@[simp] theorem size_change : (c.node node).size = node.size := by
  cases node <;> rfl

@[simp] theorem own_change : (c.node node).own next = c.part (node.own next) := by
  cases node <;> rfl

@[simp] theorem inside_change : (c.node node).inside next = node.inside next := by
  cases node <;> rfl

end EmbeddingNode

/-- The tree of a selection on the table of that name. -/
def Selection.tree (s : Selection) (root : String) : EmbeddingTree where
  root := { key := root, table := root, cardinality := .toMany, nullable := false,
            fields := s.fields }
  children := s.children

/-- A part in a gap has a number, and a change of the part is a change under this number. -/
theorem SelectionGap.exists_number (gap : SelectionGap) (node : EmbeddingNode) (root : String) :
    ∃ id next, ((gap.fill (.ofNode node)).tree root).arena.nodes[id]? = some (node.own next) ∧
      ∀ c : PartChange, ((gap.fill (.ofNode (c.node node))).tree root).arena =
        ((gap.fill (.ofNode node)).tree root).arena.change id c := by
  obtain ⟨ids, front, back, hfill⟩ := gap.flattenNodes_fill node.size 0
  let before := front ++ node.inside front.length
  have hflat (other : EmbeddingNode) (hsize : other.size = node.size)
      (hinside : other.inside front.length = node.inside front.length) :
      flattenNodes 0 (gap.fill (.ofNode other)).children =
        (ids, before ++ other.own front.length :: back) := by
    rw [hfill other hsize, Nat.zero_add, other.flatten_eq_inside_append, hinside]
    simp [before]
  have hnode := hflat node rfl rfl
  refine ⟨before.length, front.length, ?_, fun c => ?_⟩
  · simp [Selection.tree, EmbeddingTree.arena, hnode]
  · have hchanged := hflat (c.node node) (node.size_change c) (node.inside_change c front.length)
    rw [node.own_change] at hchanged
    simp only [Selection.tree, EmbeddingTree.arena, EmbeddingArena.change, hnode, hchanged,
      fields_fill_ofNode, modify_length_append]

namespace Resolver

variable (r : Resolver)

/-- What the list of a resource means on the table it names; no list selects every column. -/
def select (target : Table) : Option (List SelectItem) → Selection
  | none => target.allColumns
  | some items => r.selectList target items

theorem selectList_ofResource (table : Table) (resource : Resource)
    (list : Option (List SelectItem)) :
    r.selectList table [.ofResource resource list] =
      .ofNode (r.embed table resource (r.select · list)) := by
  rw [selectList_singleton]
  cases list <;> rfl

/-! ### One resource -/

variable {r} (table : Table) {resource other : Resource} (select : Table → Selection)

/-- A resource that is found like another one is embedded like it, up to what the two say of
themselves. -/
theorem embed_change {c : PartChange} (hname : other.name = resource.name)
    (hhint : other.hint = resource.hint) (hkey : some other.key = c.key (some resource.key))
    (hembedding : ∀ found target fields, r.embedding other found target fields =
      c.embedding (r.embedding resource found target fields)) :
    r.embed table other select = c.node (r.embed table resource select) := by
  rcases r.embed_cases table resource with
    ⟨error, herror, hembed⟩ | ⟨found, target, hfound, htarget, hembed⟩
  · rw [← hname, ← hhint] at herror
    rw [embed_eq_failed herror, hembed, hkey]
    rfl
  · rw [← hname, ← hhint] at hfound
    rw [← hname] at htarget
    rw [embed_eq_resolved hfound htarget, hembed, hembedding]
    rfl

theorem embed_rejoin (resource : Resource) (join : JoinModifier) :
    r.embed table { resource with join } select =
      (r.rejoin join).node (r.embed table resource select) :=
  embed_change table select rfl rfl rfl fun _ _ _ => rfl

theorem embed_relabel (resource : Resource) (label : Option String) :
    r.embed table { resource with label } select =
      (PartChange.relabel resource.name label).node (r.embed table resource select) :=
  embed_change table select rfl rfl rfl fun _ _ _ => rfl

theorem own_embed_standsFor (resource : Resource) (next : Nat) :
    ((r.embed table resource select).own next).StandsFor resource := by
  rcases r.embed_cases table resource with
    ⟨error, -, hembed⟩ | ⟨found, target, -, htarget, hembed⟩
  · rw [hembed]
    rfl
  · rw [hembed]
    exact ⟨rfl, name_of_findTable htarget, rfl, rfl⟩

/-! ### Anywhere in a query -/

theorem resolve_query {root : String} (gap : Gap) (list : Option (List SelectItem))
    (resource : Resource) (htable : r.catalog.table? root = some table) :
    r.resolve root (gap.query list resource) =
      .ok ((r.selectList table (gap.fill [.ofResource resource list])).tree root) := by
  refine resolve_of_ne_nil htable fun hnil => ?_
  simpa using (Gap.eq_nil_of_fill_eq_nil hnil).1

/-- A resource in a gap either has no part in the tree, or it becomes one part of it, and its modifier
and its alias count there only. -/
theorem becomesPart_query (root : String) (gap : Gap) (list : Option (List SelectItem))
    (resource : Resource) :
    (∀ other, r.resolve root (gap.query list other) = r.resolve root (gap.query list resource)) ∨
      ∃ t id, r.BecomesPart root gap list resource t id := by
  cases htable : r.catalog.table? root with
  | none =>
    left
    intro other
    rw [resolve, resolve, htable]
  | some table =>
    rcases selectList_fill gap htable with hsame | ⟨inner, selection, -, hfill⟩
    · left
      intro other
      rw [resolve_query table gap list other htable, resolve_query table gap list resource htable,
        hsame]
    · right
      have htree (other : Resource) :
          r.resolve root (gap.query list other) =
            .ok ((selection.fill (.ofNode (r.embed inner other (r.select · list)))).tree root) := by
        rw [resolve_query table gap list other htable, hfill, selectList_ofResource]
      obtain ⟨id, next, hnumber, hchange⟩ :=
        selection.exists_number (r.embed inner resource (r.select · list)) root
      refine ⟨_, id, htree resource, ⟨_, hnumber, own_embed_standsFor ..⟩, ?_, ?_⟩
      · intro join
        refine ⟨_, htree { resource with join }, ?_⟩
        rw [embed_rejoin, hchange]
      · intro label
        refine ⟨_, htree { resource with label }, ?_⟩
        rw [embed_relabel, hchange]

/-- Any resource of a query stands in a gap, and any other one could stand there, under its number
and with its list. Either the tree is the same whatever stands there, or the resource becomes one part
of it. Then another modifier changes the join of this part and what may be missing there, another
alias changes its key and its alias, and nothing else in the tree is any different. -/
theorem modifiers_local (r : Resolver) (root : String) (query : QueryTree) {number : Nat}
    {node : Arena.Node} (hnode : query.arena.nodes[number]? = some node) :
    ∃ (gap : Gap) (list : Option (List SelectItem)), query = gap.query list node.resource ∧
      (∀ other, (gap.query list other).arena = query.arena.replace number other) ∧
        ((∀ other, r.resolve root (gap.query list other) = r.resolve root query) ∨
          ∃ t id, r.BecomesPart root gap list node.resource t id) := by
  obtain ⟨gap, list, rfl, harena⟩ := query.exists_gap hnode
  exact ⟨gap, list, rfl, harena, becomesPart_query root gap list node.resource⟩

end Resolver

/-- The departments of managers, behind an error. -/
theorem Resolver.modifiers_local_staff :
    (QueryTree.mk [.unread, .managers]).arena.nodes[0]? =
        some ⟨.departments, some [.wildcard ⟨35, 36⟩]⟩ ∧
      ∃ (gap : Gap) (list : Option (List SelectItem)),
        ⟨[.unread, .managers]⟩ = gap.query list .departments ∧
          (∀ other, (gap.query list other).arena =
            (QueryTree.mk [.unread, .managers]).arena.replace 0 other) ∧
          ((∀ other, Resolver.resolve { catalog := .staff } "employees" (gap.query list other) =
              Resolver.resolve { catalog := .staff } "employees" ⟨[.unread, .managers]⟩) ∨
            ∃ t id, Resolver.BecomesPart { catalog := .staff } "employees" gap list .departments t
              id) := by
  have hnode : (QueryTree.mk [.unread, .managers]).arena.nodes[0]? =
      some ⟨.departments, some [.wildcard ⟨35, 36⟩]⟩ := rfl
  exact ⟨hnode, Resolver.modifiers_local { catalog := .staff } "employees" _ hnode⟩

end EmbedQuery
