import Mathlib.Logic.Relation
import EmbedQuery.Proofs.Embedding.Gaps

/-!
# Shorthand

Some queries are short for others: a resource without a list is short for one with the list `*`, the
plain name of a related table for such a resource, `*` for the columns of the table, and a query
without items for `*`. Whoever writes these out, anywhere in a query, gets the same tree
(`Resolver.resolve_of_eqvGen_writesOut`).

What stands in a gap of a list counts for what it means on the table of the gap only
(`Resolver.selectList_fill_congr`), so for each shorthand it is enough to look at the one table.
-/

namespace EmbedQuery

/-- The item that a column of a table is selected by. -/
def Column.item (c : Column) (span : Span) : SelectItem := .column { name := c.name, span }

/-- One shorthand is written out in a query on the table named `root`. Spans are arbitrary. -/
inductive Resolver.WritesOut (r : Resolver) (root : String) : QueryTree → QueryTree → Prop
  /-- A resource without a list has the list `*`. -/
  | bare (gap : Gap) (resource : Resource) (span : Span) :
      WritesOut r root ⟨gap.fill [.bare resource]⟩ ⟨gap.fill [.block resource [.wildcard span]]⟩
  /-- A plain name that is related to the table it stands on is a resource with the list `*`. -/
  | related (gap : Gap) (name : String) (label : Option String) (span span' star : Span)
      (hrelated : r.candidates (gap.tableName root) name ≠ []) :
      WritesOut r root ⟨gap.fill [.column { name, label, span }]⟩
        ⟨gap.fill [.block { name, label, span := span' } [.wildcard star]]⟩
  /-- A query without items is `*`. -/
  | empty (span : Span) : WritesOut r root ⟨[]⟩ ⟨[.wildcard span]⟩
  /-- On a table none of whose columns has the name of a table related to it, `*` are its columns. -/
  | wildcard (gap : Gap) (span : Span) (spans : Column → Span) (t : Table)
      (htable : r.catalog.table? (gap.tableName root) = some t)
      (hunrelated : ∀ column ∈ t.columns, r.candidates t.name column.name = []) :
      WritesOut r root ⟨gap.fill [.wildcard span]⟩
        ⟨gap.fill (t.columns.map fun column => column.item (spans column))⟩

namespace Resolver

variable {r : Resolver} {table : Table} {root : String}

/-! ### What stands in a gap -/

/-- A query without items selects nothing where there is no column to select. -/
theorem selectQuery_eq_selectList {items : List SelectItem} (h : items = [] → table.columns = []) :
    r.selectQuery table ⟨items⟩ = r.selectList table items := by
  cases items with
  | nil => simp [selectQuery, selectList, Table.allColumns, h rfl]
  | cons item items => rfl

/-- Queries that differ in what stands in a gap have the same tree if this means the same on the
table of the gap. -/
theorem resolve_fill_congr {items more : List SelectItem} (gap : Gap)
    (h : ∀ t, r.catalog.table? (gap.tableName root) = some t →
      r.selectList t items = r.selectList t more ∧
        (items = [] → t.columns = []) ∧ (more = [] → t.columns = [])) :
    r.resolve root ⟨gap.fill items⟩ = r.resolve root ⟨gap.fill more⟩ := by
  unfold resolve
  cases htable : r.catalog.table? root with
  | none => rfl
  | some table =>
    have hitems (hnil : gap.fill items = []) : table.columns = [] := by
      obtain ⟨hempty, rfl⟩ := Gap.eq_nil_of_fill_eq_nil hnil
      exact (h table htable).2.1 hempty
    have hmore (hnil : gap.fill more = []) : table.columns = [] := by
      obtain ⟨hempty, rfl⟩ := Gap.eq_nil_of_fill_eq_nil hnil
      exact (h table htable).2.2 hempty
    have hlist := selectList_fill_congr gap htable fun t ht => (h t ht).1
    have hquery : r.selectQuery table ⟨gap.fill items⟩ = r.selectQuery table ⟨gap.fill more⟩ := by
      rw [selectQuery_eq_selectList hitems, selectQuery_eq_selectList hmore, hlist]
    simp only [hquery]

/-! ### What shorthand means -/

theorem selectList_wildcard (t : Table) (span : Span) :
    r.selectList t [.wildcard span] = t.allColumns := by
  rw [selectList_singleton, selectItem]

/-- The list `*` selects what no list does. -/
theorem selectItem_block_wildcard (t : Table) (resource : Resource) (span : Span) :
    r.selectItem t (.block resource [.wildcard span]) =
      .ofNode (r.embed t resource Table.allColumns) := by
  have hselect : (fun target => r.selectList target [.wildcard span]) = Table.allColumns :=
    funext fun target => selectList_wildcard target span
  rw [selectItem, hselect]

theorem selectItem_related (t : Table) {name : String} (label : Option String)
    (span span' star : Span) (hrelated : r.candidates t.name name ≠ []) :
    r.selectItem t (.column { name, label, span }) =
      r.selectItem t (.block { name, label, span := span' } [.wildcard star]) := by
  rw [candidates_eq_ways] at hrelated
  rw [selectItem_block_wildcard, selectItem, r.selectColumn_of_related rfl hrelated]
  rfl

/-- A column that is found by its name and not related is selected as `*` selects it. -/
theorem selectItem_column {t : Table} {column : Column} (span : Span)
    (hfind : t.column? column.name = some column)
    (hunrelated : r.candidates t.name column.name = []) :
    r.selectItem t (column.item span) =
      .ofField ⟨column.name, some column.name, none, none, column.nullable⟩ := by
  rw [candidates_eq_ways] at hunrelated
  rw [Column.item, selectItem, r.selectColumn_of_unrelated hunrelated]
  simp only [hfind]
  rfl

theorem selectList_columns {t : Table} (spans : Column → Span) (columns : List Column)
    (hfind : ∀ column ∈ columns, t.column? column.name = some column)
    (hunrelated : ∀ column ∈ columns, r.candidates t.name column.name = []) :
    r.selectList t (columns.map fun column => column.item (spans column)) =
      Table.allColumns { t with columns } := by
  induction columns with
  | nil => rfl
  | cons column columns ih =>
    obtain ⟨hcolumn, hcolumns⟩ := List.forall_mem_cons.1 hfind
    obtain ⟨hfree, hfrees⟩ := List.forall_mem_cons.1 hunrelated
    rw [List.map_cons, selectList, selectItem_column _ hcolumn hfree, ih hcolumns hfrees]
    rfl

/-! ### Writing out -/

/-- Writing out one shorthand leaves the tree as it is. -/
theorem resolve_of_writesOut {query query' : QueryTree} (h : r.WritesOut root query query') :
    r.resolve root query' = r.resolve root query := by
  cases h with
  | bare gap resource span =>
    refine (resolve_fill_congr gap fun t _ => ⟨?_, by simp, by simp⟩).symm
    rw [selectList_singleton, selectList_singleton, selectItem_block_wildcard, selectItem]
  | related gap name label span span' star hrelated =>
    refine (resolve_fill_congr gap fun t ht => ⟨?_, by simp, by simp⟩).symm
    rw [← name_of_findTable ht] at hrelated
    rw [selectList_singleton, selectList_singleton,
      selectItem_related t label span span' star hrelated]
  | empty span =>
    unfold resolve
    cases r.catalog.table? root with
    | none => rfl
    | some table =>
      have hquery : r.selectQuery table ⟨[.wildcard span]⟩ = r.selectQuery table ⟨[]⟩ :=
        selectList_wildcard table span
      simp only [hquery]
  | wildcard gap span spans t htable hunrelated =>
    refine resolve_fill_congr gap fun t' ht' => ?_
    obtain rfl : t' = t := Option.some.inj (ht'.symm.trans htable)
    have hmem : t' ∈ r.catalog.tables := Catalog.mem_tables_of_table? htable
    have hfind : ∀ column ∈ t'.columns, t'.column? column.name = some column :=
      fun column hcolumn => (Catalog.column?_eq_some_iff hmem).2 ⟨hcolumn, rfl⟩
    refine ⟨?_, by simp, by simp⟩
    rw [selectList_columns spans t'.columns hfind hunrelated, selectList_wildcard]

/-- However much of the shorthand in a query is written out, or put back, the tree is the same,
number by number. -/
theorem resolve_of_eqvGen_writesOut (r : Resolver) {root : String} {query query' : QueryTree}
    (h : Relation.EqvGen (r.WritesOut root) query query') :
    r.resolve root query' = r.resolve root query ∧
      r.compose root query' = r.compose root query := by
  have htree : r.resolve root query' = r.resolve root query := by
    induction h with
    | rel query query' h => exact resolve_of_writesOut h
    | refl query => rfl
    | symm query query' _ ih => exact ih.symm
    | trans query query' query'' _ _ ih ih' => exact ih'.trans ih
  exact ⟨htree, by rw [compose_eq, compose_eq, htree]⟩

end Resolver

/-- The managers of some employees. -/
def Resource.managers : Resource := { name := "employees", hint := some "manager", span := ⟨0, 31⟩ }

/-- The departments of managers, as a plain name and with every column written out. -/
theorem Resolver.resolve_of_eqvGen_writesOut_staff :
    Relation.EqvGen (Resolver.WritesOut { catalog := .staff } "employees")
        ⟨[.block .managers [.column { name := "departments", span := ⟨18, 29⟩ }]]⟩
        ⟨[.block .managers [.block { name := "departments", span := ⟨18, 30⟩ }
          [.column { name := "id", span := ⟨29, 30⟩ }]]]⟩ ∧
      Resolver.resolve { catalog := .staff } "employees"
          ⟨[.block .managers [.block { name := "departments", span := ⟨18, 30⟩ }
            [.column { name := "id", span := ⟨29, 30⟩ }]]]⟩ =
        Resolver.resolve { catalog := .staff } "employees"
          ⟨[.block .managers [.column { name := "departments", span := ⟨18, 29⟩ }]]⟩ ∧
      Resolver.compose { catalog := .staff } "employees"
          ⟨[.block .managers [.block { name := "departments", span := ⟨18, 30⟩ }
            [.column { name := "id", span := ⟨29, 30⟩ }]]]⟩ =
        Resolver.compose { catalog := .staff } "employees"
          ⟨[.block .managers [.column { name := "departments", span := ⟨18, 29⟩ }]]⟩ := by
  let r : Resolver := { catalog := .staff }
  let departments : Resource := { name := "departments", span := ⟨18, 30⟩ }
  have hrelated : r.candidates "employees" "departments" ≠ [] := by
    rw [candidates_eq_ways]
    decide
  have hunrelated : r.candidates "departments" "id" = [] := by
    rw [candidates_eq_ways]
    decide
  have hname : r.WritesOut "employees"
      ⟨[.block .managers [.column { name := "departments", span := ⟨18, 29⟩ }]]⟩
      ⟨[.block .managers [.block departments [.wildcard ⟨29, 30⟩]]]⟩ :=
    .related (.inside [] .managers (.among [] []) []) "departments" none ⟨18, 29⟩ ⟨18, 30⟩ ⟨29, 30⟩
      hrelated
  have hstar : r.WritesOut "employees"
      ⟨[.block .managers [.block departments [.wildcard ⟨29, 30⟩]]]⟩
      ⟨[.block .managers [.block departments [.column { name := "id", span := ⟨29, 30⟩ }]]]⟩ :=
    .wildcard (.inside [] .managers (.inside [] departments (.among [] []) []) []) ⟨29, 30⟩
      (fun _ => ⟨29, 30⟩) Catalog.staff.tables[0] rfl (List.forall_mem_singleton.2 hunrelated)
  have hwritten := (Relation.EqvGen.rel _ _ hname).trans _ _ _ (.rel _ _ hstar)
  exact ⟨hwritten, Resolver.resolve_of_eqvGen_writesOut r hwritten⟩

end EmbedQuery
