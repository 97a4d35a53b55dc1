import EmbedQuery.Proofs.Embedding.WellTyped
import EmbedQuery.Proofs.Schema.Tables

/-!
# Resolved trees agree with the catalog

Whatever the query, and whether its parts could be resolved or not: every table in a resolved tree
is joined to the table outside through a foreign key of the catalog that leads from the one to the
other, and every field is a column of its table (`Resolver.resolveText_consistent`).

The invariant is `Consistent`, a judgement on a part below a table. What each item of a list adds
keeps it (`selectItem_consistent`, by induction on the item), and whatever is reached in a tree that
satisfies it satisfies it too (`Consistent.of_embeds`).
-/

namespace EmbedQuery

/-! ### What has to agree -/

/-- A field is taken from a table: its column, if it has one, is there. It may be null where the
column may; a count never is, and every other function may be. -/
def Field.TakenFrom (t : Table) (f : Field) : Prop :=
  ∀ name, f.column = some name → ∃ column, t.column? name = some column ∧
    f.nullable =
      match f.aggregate with
      | none => column.nullable
      | some .count => false
      | some _ => true

/-- An embedding selects columns of its table, which is in the catalog. -/
def Embedding.SelectsFrom (c : Catalog) (e : Embedding) : Prop :=
  ∃ t, c.table? e.table = some t ∧ ∀ f ∈ e.fields, f.TakenFrom t

/-- A relationship is a way of the catalog from `parent` to `child`: a foreign key that leads there,
with its name, its cardinality in that direction, and the number of all the ways there are. -/
structure Relationship.Connects (c : Catalog) (parent child : String) (found : Relationship) :
    Prop where
  key : ∃ k, c.foreignKeys[found.position]? = some k ∧ k.name = found.constraint ∧
    k.Leads found.direction parent child ∧
    found.cardinality = c.cardinality ⟨found.position, k, found.direction⟩
  candidates : found.candidates = (c.ways parent child).length
  pos : 1 ≤ found.candidates

/-- An embedding is joined to the table outside through a relationship, which tells its
cardinality. -/
def Embedding.JoinedTo (c : Catalog) (parent : String) (e : Embedding) : Prop :=
  ∃ found, e.relationship = some found ∧ found.Connects c parent e.table ∧
    e.cardinality = found.cardinality

/-- A part of a tree, in the embedding right outside it. -/
inductive EmbeddingTree.Embeds (t : EmbeddingTree) : Embedding → EmbeddingNode → Prop
  | root {node : EmbeddingNode} (h : node ∈ t.children) : Embeds t t.root node
  | inside {parent e : Embedding} {children : List EmbeddingNode} {node : EmbeddingNode}
      (hparent : Embeds t parent (.resolved e children)) (h : node ∈ children) : Embeds t e node

/-- A tree agrees with the catalog. -/
structure EmbeddingTree.ConsistentWith (c : Catalog) (t : EmbeddingTree) : Prop where
  root : t.root.SelectsFrom c
  resolved : ∀ parent e children, t.Embeds parent (.resolved e children) →
    e.SelectsFrom c ∧ e.JoinedTo c parent.table
  failed : ∀ parent key name, ¬t.Embeds parent (.failed key (.unknownTable name))

/-! ### The invariant -/

/-- A part below a table of that name agrees with the catalog, and so does all that is inside it. -/
inductive Catalog.Consistent (c : Catalog) : String → EmbeddingNode → Prop
  | resolved {parent : String} {e : Embedding} {children : List EmbeddingNode}
      (hselects : e.SelectsFrom c) (hjoined : e.JoinedTo c parent)
      (hchildren : ∀ node ∈ children, Consistent c e.table node) :
      Consistent c parent (.resolved e children)
  | failed {parent : String} {error : EmbedError} (key : Option String)
      (herror : ∀ name, error ≠ .unknownTable name) : Consistent c parent (.failed key error)

theorem Catalog.Consistent.of_embeds {c : Catalog} {t : EmbeddingTree}
    (h : ∀ node ∈ t.children, c.Consistent t.root.table node) {parent : Embedding}
    {node : EmbeddingNode} (hnode : t.Embeds parent node) : c.Consistent parent.table node := by
  induction hnode with
  | root hmem => exact h _ hmem
  | inside _ hmem ih =>
    cases ih with
    | resolved _ _ hchildren => exact hchildren _ hmem

theorem EmbeddingTree.consistentWith {c : Catalog} {t : EmbeddingTree}
    (hroot : t.root.SelectsFrom c) (h : ∀ node ∈ t.children, c.Consistent t.root.table node) :
    t.ConsistentWith c where
  root := hroot
  resolved parent e children hnode := by
    cases Catalog.Consistent.of_embeds h hnode with
    | resolved hselects hjoined _ => exact ⟨hselects, hjoined⟩
  failed parent key name hnode := by
    cases Catalog.Consistent.of_embeds h hnode with
    | failed _ herror => exact herror name rfl

/-- What a list means on a table agrees with the catalog. -/
structure Selection.ConsistentOn (c : Catalog) (t : Table) (s : Selection) : Prop where
  fields : ∀ f ∈ s.fields, f.TakenFrom t
  children : ∀ node ∈ s.children, c.Consistent t.name node

namespace Selection.ConsistentOn

variable {c : Catalog} {t : Table} {s s' : Selection}

theorem empty : Selection.ConsistentOn c t {} := ⟨nofun, nofun⟩

theorem append (h : s.ConsistentOn c t) (h' : s'.ConsistentOn c t) :
    (s ++ s').ConsistentOn c t where
  fields f hf := (List.mem_append.1 hf).elim (h.fields f) (h'.fields f)
  children node hnode := (List.mem_append.1 hnode).elim (h.children node) (h'.children node)

theorem ofNode {node : EmbeddingNode} (h : c.Consistent t.name node) :
    (Selection.ofNode node).ConsistentOn c t where
  fields := nofun
  children _ hmem := List.mem_singleton.1 hmem ▸ h

theorem ofField {f : Field} (h : f.TakenFrom t) : (Selection.ofField f).ConsistentOn c t where
  fields _ hmem := List.mem_singleton.1 hmem ▸ h
  children := nofun

/-- All columns of a table of the catalog are found there by their names. -/
theorem allColumns (ht : t ∈ c.tables) : t.allColumns.ConsistentOn c t where
  fields f hf := by
    obtain ⟨column, hcolumn, rfl⟩ := List.mem_map.1 hf
    rintro name ⟨⟩
    exact ⟨column, (Catalog.column?_eq_some_iff ht).2 ⟨hcolumn, rfl⟩, rfl⟩
  children := nofun

end Selection.ConsistentOn

/-! ### Resolving keeps the invariant -/

namespace Resolver

variable (r : Resolver) {table : Table}

/-- A look-up that succeeds gives a way of the catalog. -/
theorem connects_of_relationship {parent child : String} {hint : Option String}
    {found : Relationship} (h : r.relationship parent child hint = .ok found) :
    found.Connects r.catalog parent child := by
  obtain ⟨w, hway, rfl⟩ := (r.relationship_eq_ok_iff parent child hint found).1 h
  have hmem : w ∈ r.catalog.ways parent child :=
    (List.mem_filter.1 (hway ▸ List.mem_cons_self : w ∈ r.catalog.fitting parent child hint)).1
  obtain ⟨hkey, hleads⟩ := Catalog.mem_ways_iff.1 hmem
  exact ⟨⟨w.key, hkey, rfl, hleads, rfl⟩, rfl, List.length_pos_of_mem hmem⟩

theorem embed_consistent (resource : Resource) {select : Table → Selection}
    (hselect : ∀ target, r.catalog.table? target.name = some target →
      (select target).ConsistentOn r.catalog target) :
    r.catalog.Consistent table.name (r.embed table resource select) := by
  rcases r.embed_cases table resource with
    ⟨error, -, hembed⟩ | ⟨found, target, hfound, htarget, hembed⟩
  · rw [hembed]
    exact .failed _ nofun
  · have hconnects := r.connects_of_relationship hfound
    have hname : target.name = resource.name := name_of_findTable htarget
    rw [← hname] at htarget hconnects
    have hselected := hselect target htarget
    rw [hembed]
    exact .resolved ⟨target, htarget, hselected.fields⟩ ⟨found, rfl, hconnects, rfl⟩
      hselected.children

theorem embed_allColumns_consistent (resource : Resource) :
    r.catalog.Consistent table.name (r.embed table resource Table.allColumns) :=
  r.embed_consistent resource fun _ htarget => .allColumns (Catalog.mem_tables_of_table? htarget)

theorem selectColumn_consistent (column : ColumnRef) :
    (r.selectColumn table column).ConsistentOn r.catalog table := by
  unfold selectColumn
  split
  · exact .ofNode (r.embed_allColumns_consistent _)
  · cases hsource : table.column? column.name with
    | none => exact .ofNode (.failed _ nofun)
    | some source =>
      refine .ofField ?_
      rintro name ⟨⟩
      refine ⟨source, hsource, ?_⟩
      dsimp only
      cases column.aggregate with
      | none => rfl
      | some aggregate => cases aggregate <;> rfl

mutual

/-- What an item adds agrees with the catalog. -/
theorem selectItem_consistent (r : Resolver) : ∀ (item : SelectItem) {table : Table},
    table ∈ r.catalog.tables → (r.selectItem table item).ConsistentOn r.catalog table
  | .wildcard _, _, htable => .allColumns htable
  | .column column, _, _ => r.selectColumn_consistent column
  | .count _ _ _, _, _ => .ofField nofun
  | .bare resource, _, _ => .ofNode (r.embed_allColumns_consistent resource)
  | .block resource items, _, _ =>
    .ofNode (r.embed_consistent resource fun _ htarget =>
      selectList_consistent r items (Catalog.mem_tables_of_table? htarget))
  | .invalid _ _, _, _ => .ofNode (.failed none nofun)

/-- What a list means on a table of the catalog agrees with the catalog. -/
theorem selectList_consistent (r : Resolver) : ∀ (items : List SelectItem) {table : Table},
    table ∈ r.catalog.tables → (r.selectList table items).ConsistentOn r.catalog table
  | [], _, _ => .empty
  | item :: items, _, htable =>
    (selectItem_consistent r item htable).append (selectList_consistent r items htable)

end

theorem selectQuery_consistent (htable : table ∈ r.catalog.tables) (query : QueryTree) :
    (r.selectQuery table query).ConsistentOn r.catalog table := by
  unfold selectQuery
  split
  · exact .allColumns htable
  · exact r.selectList_consistent _ htable

/-- The tree of a query agrees with the catalog: its tables, the ways between them and their fields
are those of the catalog, and below the root no table is unknown. -/
theorem resolveText_consistent (r : Resolver) {root query : String} {t : EmbeddingTree}
    (h : r.resolveText root query = .ok t) : t.ConsistentWith r.catalog := by
  unfold resolveText resolve at h
  cases htable : r.catalog.table? root with
  | none =>
    rw [htable] at h
    cases h
  | some table =>
    rw [htable] at h
    cases h
    have hname : table.name = root := name_of_findTable htable
    have hselected :=
      r.selectQuery_consistent (Catalog.mem_tables_of_table? htable) (QueryTree.parse query)
    refine EmbeddingTree.consistentWith ⟨table, htable, hselected.fields⟩ ?_
    intro node hnode
    rw [← hname]
    exact hselected.children node hnode

end Resolver

/-- Employees, some of whom manage others, in departments. -/
def Catalog.staff : Catalog where
  tables := [
    { name := "departments", columns := [{ name := "id", primaryKey := true, nullable := false }] },
    { name := "employees"
      columns := [
        { name := "id", primaryKey := true, nullable := false },
        { name := "manager" },
        { name := "department", nullable := false }] }]
  foreignKeys := [
    ⟨"manager_fkey", "employees", ["manager"], "employees", ["id"]⟩,
    ⟨"department_fkey", "employees", ["department"], "departments", ["id"]⟩]
  sound := by decide
  normal := by decide

/-- A table in itself both ways, a table two deep, a name that means nothing and a list that is not
closed. -/
theorem Resolver.resolveText_consistent_staff :
    ∃ t, Resolver.resolveText { catalog := .staff } "employees"
        "id, employees!manager(id.max(), departments), employees!id(*), rooms(*), count(" = .ok t ∧
      t.ConsistentWith .staff := by
  have htable : (Catalog.table? .staff "employees").isSome := rfl
  obtain ⟨table, htable⟩ := Option.isSome_iff_exists.1 htable
  obtain ⟨t, ht, -⟩ := Resolver.resolve_of_table (r := { catalog := .staff }) htable
    (QueryTree.parse
      "id, employees!manager(id.max(), departments), employees!id(*), rooms(*), count(")
  exact ⟨t, ht, Resolver.resolveText_consistent _ ht⟩

end EmbedQuery
