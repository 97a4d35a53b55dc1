import EmbedQuery.Proofs.Schema.Validation

/-!
# The tables of a catalog

What a catalog owes to its document being well-formed. No table has two columns of one name, so a
column is found by its name whenever it is there (`Catalog.column?_eq_some_iff`), and the primary
key lists no name twice. Both sides of a foreign key are tables with the columns that the key lists
(`Catalog.exists_table`, `Catalog.exists_referencesTable`).
-/

namespace EmbedQuery

theorem name_of_findTable {tables : List Table} {name : String} {t : Table}
    (h : findTable tables name = some t) : t.name = name := by
  simpa using List.find?_some h

namespace Catalog

variable {c : Catalog} {t : Table} {k : ForeignKey}

theorem mem_tables_of_table? {name : String} (h : c.table? name = some t) : t ∈ c.tables :=
  List.mem_of_find?_eq_some h

/-- In a catalog, a name finds the table that has it. -/
theorem table?_eq_some_iff {name : String} :
    c.table? name = some t ↔ t ∈ c.tables ∧ t.name = name :=
  find?_name_eq_some_iff c.wellFormed.tables

theorem table?_eq_none_iff {name : String} :
    c.table? name = none ↔ name ∉ c.tables.map Table.name := by
  rw [table?, findTable, List.find?_eq_none]
  simp

/-! ### Columns -/

/-- No table of a catalog has two columns of one name. -/
theorem nodup_columnNames (ht : t ∈ c.tables) : t.columnNames.Nodup := c.wellFormed.columns t ht

theorem column?_eq_some_iff (ht : t ∈ c.tables) {name : String} {column : Column} :
    t.column? name = some column ↔ column ∈ t.columns ∧ column.name = name :=
  find?_name_eq_some_iff (nodup_columnNames ht)

/-- The primary key of a table of a catalog lists no column twice. -/
theorem nodup_primaryKey (ht : t ∈ c.tables) : t.primaryKey.Nodup :=
  (nodup_columnNames ht).sublist (List.filter_sublist.map Column.name)

/-! ### Sides of foreign keys -/

theorem table?_of_hasColumns {table : String} {columns : List String}
    (h : HasColumns c.tables table columns) :
    ∃ t, c.table? table = some t ∧ ∀ column ∈ columns, column ∈ t.columnNames := by
  obtain ⟨t, ht, hname, hcolumns⟩ := h
  exact ⟨t, table?_eq_some_iff.2 ⟨ht, hname⟩, hcolumns⟩

/-- A key of a catalog has columns. -/
theorem columns_ne_nil (hk : k ∈ c.foreignKeys) : k.columns ≠ [] := (c.wellFormed.sides k hk).1

/-- The table that holds a key of a catalog is in the catalog, with the columns of the key. -/
theorem exists_table (hk : k ∈ c.foreignKeys) :
    ∃ t, c.table? k.table = some t ∧ ∀ column ∈ k.columns, column ∈ t.columnNames := by
  obtain ⟨-, -, -, hsource, -⟩ := c.wellFormed.sides k hk
  exact table?_of_hasColumns hsource

/-- The table that a key of a catalog refers to is in the catalog, with the columns referred to. -/
theorem exists_referencesTable (hk : k ∈ c.foreignKeys) :
    ∃ t, c.table? k.referencesTable = some t ∧
      ∀ column ∈ k.referencesColumns, column ∈ t.columnNames := by
  obtain ⟨-, -, -, -, htarget⟩ := c.wellFormed.sides k hk
  exact table?_of_hasColumns htarget

end Catalog

end EmbedQuery
