import Mathlib.Data.Set.Insert
import EmbedQuery.Proofs.Embedding.Consistency

/-!
# Rows that are there

An embedding of one row that is said not to be null has its row, in every database that keeps the
rules of the catalog (`Resolver.exists_matching_row`). The rules are that a column without nulls has
none and that a row which refers to another table, having a value in each column of the foreign key,
refers to a row that is there.

What is said of an embedding comes from the look-up that leads to it. `Resolver.Builds` is the
judgement that keeps it, for every part that resolving makes. The row can be promised through a
foreign key of the outer table only, and there its columns have no nulls.
-/

namespace EmbedQuery

/-! ### Databases -/

/-- A row: the value in each column, none where it is null. -/
abbrev Row (Value : Type) := String → Option Value

/-- The rows in each table. -/
structure Database (Value : Type) where
  rows : String → Set (Row Value)

section Database

variable {Value : Type}

/-- The row `source` refers to the row `target` through a key: position by position, the columns
have the same value, which is not null. -/
def ForeignKey.Refers (k : ForeignKey) (source target : Row Value) : Prop :=
  List.Forall₂
    (fun column referenced => ∃ value, source column = some value ∧ target referenced = some value)
    k.columns k.referencesColumns

/-- A row of the child matches a row of the parent: the one refers to the other, which of them being
told by the direction. -/
def ForeignKey.Matches (k : ForeignKey) (direction : Direction) (parent child : Row Value) : Prop :=
  match direction with
  | .forward => k.Refers parent child
  | .reverse => k.Refers child parent

/-- A database keeps the rules of a catalog. -/
structure Database.Legal (db : Database Value) (c : Catalog) : Prop where
  notNull : ∀ t ∈ c.tables, ∀ column ∈ t.columns, column.nullable = false →
    ∀ row ∈ db.rows t.name, row column.name ≠ none
  refers : ∀ k ∈ c.foreignKeys, ∀ row ∈ db.rows k.table,
    (∀ column ∈ k.columns, row column ≠ none) → ∃ other ∈ db.rows k.referencesTable,
      k.Refers row other

end Database

namespace Resolver

/-! ### What resolving builds -/

/-- A part that resolving makes below a table of that name: an error, or a table that a look-up
leads to, of which the look-up tells the cardinality and whether it may be missing. -/
inductive Builds (r : Resolver) : String → EmbeddingNode → Prop
  | failed {parent : String} (key : Option String) (error : EmbedError) :
      Builds r parent (.failed key error)
  | resolved {parent : String} {resource : Resource} {found : Relationship} {target : Table}
      {s : Selection}
      (hfound : r.relationship parent resource.name resource.hint = .ok found)
      (htarget : r.catalog.table? resource.name = some target)
      (hchildren : ∀ node ∈ s.children, Builds r target.name node) :
      Builds r parent
        (.resolved
          { key := resource.key
            table := target.name
            label := resource.label
            cardinality := found.cardinality
            nullable := r.mayBeMissing found resource.join
            join := resource.join
            relationship := some found
            fields := s.fields }
          s.children)

section Builds

variable {r : Resolver} {table : Table}

theorem embed_builds (resource : Resource) {select : Table → Selection}
    (hselect : ∀ target, ∀ node ∈ (select target).children, r.Builds target.name node) :
    r.Builds table.name (r.embed table resource select) := by
  rcases r.embed_cases table resource with
    ⟨error, -, hembed⟩ | ⟨found, target, hfound, htarget, hembed⟩
  · rw [hembed]
    exact .failed _ _
  · rw [hembed]
    exact .resolved hfound htarget (hselect target)

theorem embed_allColumns_builds (resource : Resource) :
    r.Builds table.name (r.embed table resource Table.allColumns) :=
  embed_builds resource fun _ _ => nofun

theorem selectColumn_builds (column : ColumnRef) :
    ∀ node ∈ (r.selectColumn table column).children, r.Builds table.name node := by
  unfold selectColumn
  split
  · exact List.forall_mem_singleton.2 (embed_allColumns_builds _)
  · split
    · exact List.forall_mem_singleton.2 (.failed _ _)
    · exact nofun

mutual

theorem selectItem_builds : ∀ (item : SelectItem) (table : Table),
    ∀ node ∈ (r.selectItem table item).children, r.Builds table.name node
  | .wildcard _, _ => nofun
  | .column column, _ => selectColumn_builds column
  | .count _ _ _, _ => nofun
  | .bare resource, _ => List.forall_mem_singleton.2 (embed_allColumns_builds resource)
  | .block resource items, _ =>
    List.forall_mem_singleton.2 (embed_builds resource fun target => selectList_builds items target)
  | .invalid _ _, _ => List.forall_mem_singleton.2 (.failed none _)

theorem selectList_builds : ∀ (items : List SelectItem) (table : Table),
    ∀ node ∈ (r.selectList table items).children, r.Builds table.name node
  | [], _ => nofun
  | item :: items, table =>
    List.forall_mem_append.2 ⟨selectItem_builds item table, selectList_builds items table⟩

end

theorem selectQuery_builds (query : QueryTree) :
    ∀ node ∈ (r.selectQuery table query).children, r.Builds table.name node := by
  unfold selectQuery
  split
  · exact nofun
  · exact selectList_builds _ table

/-- Every part of the tree of a query is built below the table right outside it. -/
theorem builds_of_embeds {root : String} {query : QueryTree} {t : EmbeddingTree}
    (h : r.resolve root query = .ok t) {parent : Embedding} {node : EmbeddingNode}
    (hnode : t.Embeds parent node) : r.Builds parent.table node := by
  unfold resolve at h
  cases htable : r.catalog.table? root with
  | none =>
    rw [htable] at h
    cases h
  | some table =>
    rw [htable] at h
    cases h
    have hname : table.name = root := name_of_findTable htable
    induction hnode with
    | root hmem => exact hname ▸ selectQuery_builds query _ hmem
    | inside _ hmem ih =>
      cases ih with
      | resolved _ _ hchildren => exact hchildren _ hmem

end Builds

/-! ### The row -/

section Presence

variable {r : Resolver} {found : Relationship} {Value : Type} {db : Database Value}

/-- Without a join modifier, the row of an embedding of one row is promised through a foreign key of
the outer table, if it is the only one between the two tables and none of its columns has nulls. -/
theorem mayBeMissing_default_iff (hone : found.cardinality = .toOne) :
    r.mayBeMissing found .default = false ↔ found.direction = .forward ∧
      found.wasAmbiguous = false ∧ r.hasNullableSource found = false := by
  unfold mayBeMissing
  rw [hone]
  cases found.direction <;> simp

/-- A row has a value in every column of a foreign key, if none of them is declared to have nulls.
-/
theorem ne_none_of_hasNullableSource (hlegal : db.Legal r.catalog)
    (hsource : r.hasNullableSource found = false) {k : ForeignKey}
    (hk : r.catalog.foreignKeys[found.position]? = some k) {row : Row Value}
    (hrow : row ∈ db.rows k.table) : ∀ column ∈ k.columns, row column ≠ none := by
  intro name hname
  obtain ⟨t, ht, hcolumns⟩ := Catalog.exists_table (List.mem_of_getElem? hk)
  have hmem : t ∈ r.catalog.tables := Catalog.mem_tables_of_table? ht
  obtain ⟨column, hcolumn, rfl⟩ := List.mem_map.1 (hcolumns name hname)
  have hfind : t.column? column.name = some column :=
    (Catalog.column?_eq_some_iff hmem).2 ⟨hcolumn, rfl⟩
  have hnullable : column.nullable = false := by
    simp only [hasNullableSource, hk, ht, Option.any_some, List.any_eq_false] at hsource
    simpa [hfind] using hsource column.name hname
  apply hlegal.notNull t hmem column hcolumn hnullable
  rwa [name_of_findTable ht]

/-- An embedding of one row, without a join modifier, that is said not to be null has its row: in a
database that keeps the rules of the catalog, every row of the table outside it has a row of its
table that matches through its foreign key. -/
theorem exists_matching_row {root : String} {query : QueryTree} {t : EmbeddingTree}
    (h : r.resolve root query = .ok t) {parent e : Embedding} {children : List EmbeddingNode}
    (hnode : t.Embeds parent (.resolved e children)) (hone : e.cardinality = .toOne)
    (hjoin : e.join = .default) (hnullable : e.nullable = false) (hlegal : db.Legal r.catalog) :
    ∃ found k, e.relationship = some found ∧
      r.catalog.foreignKeys[found.position]? = some k ∧
      ∀ row ∈ db.rows parent.table, ∃ other ∈ db.rows e.table,
        k.Matches found.direction row other := by
  cases builds_of_embeds h hnode with
  | @resolved _ resource found target s hfound htarget _ =>
    obtain ⟨k, hk, -, hleads, -⟩ := (r.connects_of_relationship hfound).key
    refine ⟨found, k, rfl, hk, ?_⟩
    intro row hrow
    dsimp only at hone hjoin hnullable
    rw [hjoin, mayBeMissing_default_iff hone] at hnullable
    obtain ⟨hforward, -, hsource⟩ := hnullable
    rw [hforward] at hleads ⊢
    obtain ⟨hparent, hchild⟩ := hleads
    rw [← hparent] at hrow
    have hname : target.name = k.referencesTable := (name_of_findTable htarget).trans hchild.symm
    have hvalues := ne_none_of_hasNullableSource hlegal hsource hk hrow
    obtain ⟨other, hother, hrefers⟩ :=
      hlegal.refers k (List.mem_of_getElem? hk) row hrow hvalues
    exact ⟨other, hname ▸ hother, hrefers⟩

end Presence

end Resolver

/-- One employee, without a manager, in the one department. -/
def Database.staff : Database Nat where
  rows
    | "departments" => {fun _ => some 7}
    | "employees" => {fun column => if column = "manager" then none else some 7}
    | _ => ∅

theorem Database.legal_staff : Database.staff.Legal .staff where
  notNull := by
    simp [Catalog.staff, Database.staff]
  refers := by
    simp [Catalog.staff, Database.staff, ForeignKey.Refers]

/-- Every employee has a department, also one without a manager. -/
theorem Resolver.exists_matching_row_staff :
    ∃ t e, Resolver.resolve { catalog := .staff } "employees"
        ⟨[.bare { name := "departments", span := ⟨0, 11⟩ }]⟩ = .ok t ∧
      t.Embeds t.root (.resolved e []) ∧ e.cardinality = .toOne ∧ e.join = .default ∧
      e.nullable = false ∧ Database.staff.Legal .staff ∧
      ∃ found k, e.relationship = some found ∧
        Catalog.staff.foreignKeys[found.position]? = some k ∧
        ∀ row ∈ Database.staff.rows t.root.table, ∃ other ∈ Database.staff.rows e.table,
          k.Matches found.direction row other := by
  let r : Resolver := { catalog := .staff }
  let key : ForeignKey := ⟨"department_fkey", "employees", ["department"], "departments", ["id"]⟩
  let found : Relationship := ⟨1, "department_fkey", .forward, .toOne, 1⟩
  let root : Embedding :=
    { key := "employees", table := "employees", cardinality := .toMany, nullable := false
      fields := [] }
  let e : Embedding :=
    { key := "departments", table := "departments", cardinality := .toOne, nullable := false
      relationship := some found, fields := [⟨"id", some "id", none, none, false⟩] }
  have hfound : r.relationship "employees" "departments" none = .ok found :=
    (r.relationship_eq_ok_iff _ _ _ _).2 ⟨⟨1, key, .forward⟩, by decide, rfl⟩
  have hembed : r.embed Catalog.staff.tables[1] { name := "departments", span := ⟨0, 11⟩ }
      Table.allColumns = .resolved e [] := by
    unfold embed
    rw [show r.relationship Catalog.staff.tables[1].name "departments" none = _ from hfound]
    rfl
  have htree : r.resolve "employees" ⟨[.bare { name := "departments", span := ⟨0, 11⟩ }]⟩ =
      .ok ⟨root, [.resolved e []]⟩ := by
    rw [← hembed]
    rfl
  have hnode : EmbeddingTree.Embeds ⟨root, [.resolved e []]⟩ root (.resolved e []) :=
    .root List.mem_cons_self
  exact ⟨_, e, htree, hnode, rfl, rfl, rfl, Database.legal_staff,
    Resolver.exists_matching_row htree hnode rfl rfl rfl Database.legal_staff⟩

end EmbedQuery
