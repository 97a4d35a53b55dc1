/-!
# Tables and foreign keys

The description of a database that queries are resolved against. Names are kept as written and
compared exactly.
-/

namespace EmbedQuery

structure Column where
  name : String
  /-- The name of the type, for readers only. -/
  dataType : String := ""
  nullable : Bool := true
  primaryKey : Bool := false
  /-- Whether no value of the column occurs twice. -/
  unique : Bool := false
deriving DecidableEq, Repr

namespace Column

def markNotNull (c : Column) : Column := { c with nullable := false }

/-- The column as a part of the primary key, which has no nulls. -/
def markPrimaryKey (c : Column) : Column := { c with primaryKey := true, nullable := false }

/-- The column, with each value at most once. -/
def markUnique (c : Column) : Column := { c with unique := true }

/-- The column with the nullability that its place in the primary key forces. -/
def normalize (c : Column) : Column :=
  if c.primaryKey then { c with nullable := false } else c

end Column

/-- A set of columns whose values together occur at most once. -/
structure UniqueConstraint where
  name : String
  columns : List String
deriving DecidableEq, Repr

structure Table where
  name : String
  columns : List Column := []
  uniqueConstraints : List UniqueConstraint := []
deriving DecidableEq, Repr

namespace Table

def column? (t : Table) (name : String) : Option Column := t.columns.find? (·.name == name)

def columnNames (t : Table) : List String := t.columns.map Column.name

/-- The names of the columns of the primary key, in order. -/
def primaryKey (t : Table) : List String := (t.columns.filter Column.primaryKey).map Column.name

/-- Whether `columns` has as many names as `key` and each of them is in `key`. -/
def coversKey (columns key : List String) : Bool :=
  key.length == columns.length && columns.all (key.contains ·)

/-- Whether `columns` is the primary key, a unique constraint, or one column marked unique. -/
def isUniqueKey (t : Table) (columns : List String) : Bool :=
  match columns with
  | [] => false
  | [single] =>
    (t.column? single).any Column.unique || coversKey columns t.primaryKey ||
      t.uniqueConstraints.any fun u => coversKey columns u.columns
  | _ =>
    coversKey columns t.primaryKey || t.uniqueConstraints.any fun u => coversKey columns u.columns

/-- The table with the nullability that its primary key forces. -/
def normalize (t : Table) : Table := { t with columns := t.columns.map Column.normalize }

/-- The columns of the primary key have no nulls. -/
def IsNormal (t : Table) : Prop := ∀ c ∈ t.columns, c.primaryKey = true → c.nullable = false

instance (t : Table) : Decidable t.IsNormal :=
  inferInstanceAs (Decidable (∀ c ∈ t.columns, c.primaryKey = true → c.nullable = false))

theorem isNormal_normalize (t : Table) : t.normalize.IsNormal := by
  intro c hc hkey
  obtain ⟨d, -, rfl⟩ := List.mem_map.1 hc
  unfold Column.normalize at hkey ⊢
  split
  · rfl
  · next h => simp_all

end Table

/-- A foreign key: the values of `columns` in `table` occur in `referencesColumns` of
`referencesTable`, position by position. -/
structure ForeignKey where
  name : String
  table : String
  columns : List String
  referencesTable : String
  referencesColumns : List String
deriving DecidableEq, Repr

namespace ForeignKey

/-- Whether a column of that name is on either side of the key. -/
def mentions (k : ForeignKey) (column : String) : Bool :=
  k.columns.contains column || k.referencesColumns.contains column

/-- Whether both sides are the same table. -/
def isSelfReferencing (k : ForeignKey) : Bool := k.table == k.referencesTable

end ForeignKey

end EmbedQuery
