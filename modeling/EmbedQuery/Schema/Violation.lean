import EmbedQuery.Schema.Basic

/-!
# What is wrong with a schema

`violations` lists everything that keeps tables and foreign keys from being a catalog: table by
table in order, then key by key. Whoever wants one answer takes the first.
-/

namespace EmbedQuery

/-- A rule of catalogs that is broken. -/
inductive Violation
  | duplicateTable (table : String)
  | duplicateColumn (table column : String)
  | duplicateConstraint (table constraint : String)
  | unknownTable (constraint table : String)
  | unknownColumn (constraint table column : String)
  | emptyConstraint (constraint : String)
  | columnCountMismatch (constraint : String) (sources targets : Nat)
deriving DecidableEq, Repr

def Violation.message : Violation → String
  | duplicateTable table => s!"table '{table}' is defined more than once"
  | duplicateColumn table column => s!"column '{column}' is defined more than once on '{table}'"
  | duplicateConstraint table constraint =>
    s!"constraint '{constraint}' is defined more than once on '{table}'"
  | unknownTable constraint table =>
    s!"foreign key '{constraint}' refers to unknown table '{table}'"
  | unknownColumn constraint table column =>
    s!"constraint '{constraint}' refers to unknown column '{table}.{column}'"
  | emptyConstraint constraint => s!"constraint '{constraint}' has no columns"
  | columnCountMismatch constraint sources targets =>
    s!"foreign key '{constraint}' maps {sources} column(s) onto {targets} column(s)"

/-- The elements of a list that occur in `earlier` or before themselves, in order. -/
def repeated (earlier : List String) : List String → List String
  | [] => []
  | x :: xs => (if x ∈ earlier then [x] else []) ++ repeated (x :: earlier) xs

/-- A column for each name of `columns` that the table lacks, under the name of a constraint. -/
def Table.missing (t : Table) (constraint : String) (columns : List String) : List Violation :=
  (columns.filter (· ∉ t.columnNames)).map (.unknownColumn constraint t.name ·)

/-- A unique constraint lists columns, and only columns of its table. -/
def UniqueConstraint.violations (t : Table) (u : UniqueConstraint) : List Violation :=
  (if u.columns = [] then [.emptyConstraint u.name] else []) ++ t.missing u.name u.columns

/-- A table has no column twice, and its unique constraints are sound. -/
def Table.violations (t : Table) : List Violation :=
  (repeated [] t.columnNames).map (.duplicateColumn t.name ·) ++
    t.uniqueConstraints.flatMap (·.violations t)

/-- The tables, of which `earlier` are the names used before, have different names and are sound. -/
def tableViolations (earlier : List String) : List Table → List Violation
  | [] => []
  | t :: ts =>
    (if t.name ∈ earlier then [.duplicateTable t.name] else []) ++ t.violations ++
      tableViolations (t.name :: earlier) ts

def findTable (tables : List Table) (name : String) : Option Table :=
  tables.find? (·.name == name)

/-- One side of a foreign key is a table, with the columns listed. -/
def sideViolations (tables : List Table) (constraint table : String) (columns : List String) :
    List Violation :=
  match findTable tables table with
  | none => [.unknownTable constraint table]
  | some t => t.missing constraint columns

/-- A foreign key has columns on both sides, equally many, and both sides exist. -/
def ForeignKey.violations (tables : List Table) (k : ForeignKey) : List Violation :=
  (if k.columns = [] ∨ k.referencesColumns = [] then [.emptyConstraint k.name] else []) ++
    (if k.columns.length ≠ k.referencesColumns.length then
      [.columnCountMismatch k.name k.columns.length k.referencesColumns.length] else []) ++
    sideViolations tables k.name k.table k.columns ++
    sideViolations tables k.name k.referencesTable k.referencesColumns

/-- No table has two keys of one name, `earlier` being the pairs used before, and all are sound. -/
def keyViolations (tables : List Table) (earlier : List (String × String)) :
    List ForeignKey → List Violation
  | [] => []
  | k :: ks =>
    (if (k.table, k.name) ∈ earlier then [.duplicateConstraint k.table k.name] else []) ++
      k.violations tables ++ keyViolations tables ((k.table, k.name) :: earlier) ks

/-- Everything that is wrong, in the order of the tables and then of the keys. -/
def violations (tables : List Table) (keys : List ForeignKey) : List Violation :=
  tableViolations [] tables ++ keyViolations tables [] keys

end EmbedQuery
