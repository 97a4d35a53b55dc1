import EmbedQuery.Json.Reader
import EmbedQuery.Json.Record
import EmbedQuery.Schema.Catalog

/-!
# Catalog documents

A document is a JSON record with the fields `tables` and `foreign_keys`; tables, columns, unique
constraints and foreign keys are records in turn. Columns are nullable unless the document says
otherwise.
-/

namespace EmbedQuery

open Json

/-- A column: `name`, `data_type`, `nullable`, `primary_key`, `unique`. -/
def Column.ofJson? (j : Json) : Option Column := do
  match ← j.fields? ["name", "data_type", "nullable", "primary_key", "unique"] with
  | [name, dataType, nullable, primaryKey, unique] =>
    return {
      name := ← required? text? name
      dataType := ← optional? "" text? dataType
      nullable := ← optional? true bool? nullable
      primaryKey := ← optional? false bool? primaryKey
      unique := ← optional? false bool? unique }
  | _ => none

/-- A unique constraint: `name`, `columns`. -/
def UniqueConstraint.ofJson? (j : Json) : Option UniqueConstraint := do
  match ← j.fields? ["name", "columns"] with
  | [name, columns] =>
    return {
      name := ← required? text? name
      columns := ← required? (list? text?) columns }
  | _ => none

/-- A table: `name`, `columns`, `unique_constraints`. -/
def Table.ofJson? (j : Json) : Option Table := do
  match ← j.fields? ["name", "columns", "unique_constraints"] with
  | [name, columns, uniqueConstraints] =>
    return {
      name := ← required? text? name
      columns := ← required? (list? Column.ofJson?) columns
      uniqueConstraints := ← optional? [] (list? UniqueConstraint.ofJson?) uniqueConstraints }
  | _ => none

/-- A foreign key: `name`, `table`, `columns`, `references_table`, `references_columns`. -/
def ForeignKey.ofJson? (j : Json) : Option ForeignKey := do
  match ← j.fields? ["name", "table", "columns", "references_table", "references_columns"] with
  | [name, table, columns, referencesTable, referencesColumns] =>
    return {
      name := ← required? text? name
      table := ← required? text? table
      columns := ← required? (list? text?) columns
      referencesTable := ← required? text? referencesTable
      referencesColumns := ← required? (list? text?) referencesColumns }
  | _ => none

/-- A document: `tables`, `foreign_keys`. -/
def Document.ofJson? (j : Json) : Option Document := do
  match ← j.fields? ["tables", "foreign_keys"] with
  | [tables, foreignKeys] =>
    return {
      tables := ← required? (list? Table.ofJson?) tables
      foreignKeys := ← optional? [] (list? ForeignKey.ofJson?) foreignKeys }
  | _ => none

/-- The document that a text holds. -/
def Document.parse? (text : String) : Option Document := do
  Document.ofJson? (← Json.parse? text.toList)

end EmbedQuery
