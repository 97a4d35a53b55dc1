import EmbedQuery.Schema.Catalog

/-!
# Drafts

A document under construction, with the last catalog built from it. A failed attempt to build keeps
the catalog there was.
-/

namespace EmbedQuery

/-- A document under construction. -/
structure Draft where
  document : Document := ⟨[], []⟩
  catalog : Option Catalog := none

namespace Draft

/-- Adds an empty table. -/
def addTable (d : Draft) (name : String) : Draft :=
  { d with document.tables := d.document.tables ++ [{ name }] }

/-- The table added last. -/
def lastTable? (d : Draft) : Option Table := d.document.tables.getLast?

/-- Changes the table added last. -/
def modifyLast (d : Draft) (change : Table → Table) : Draft :=
  { d with document.tables :=
      d.document.tables.dropLast ++ (d.lastTable?.map change).toList }

/-- Adds a column to the table added last. -/
def addColumn (d : Draft) (column : Column) : Draft :=
  d.modifyLast fun t => { t with columns := t.columns ++ [column] }

/-- Adds a unique constraint to the table added last. -/
def addUnique (d : Draft) (constraint : UniqueConstraint) : Draft :=
  d.modifyLast fun t => { t with uniqueConstraints := t.uniqueConstraints ++ [constraint] }

/-- Adds a foreign key. -/
def addForeignKey (d : Draft) (key : ForeignKey) : Draft :=
  { d with document.foreignKeys := d.document.foreignKeys ++ [key] }

/-- Removes the foreign key added last, which comes with the rest. -/
def dropForeignKey (d : Draft) : Option ForeignKey × Draft :=
  (d.document.foreignKeys.getLast?,
    { d with document.foreignKeys := d.document.foreignKeys.dropLast })

/-- Builds the catalog; if that fails, the catalog built before stays. -/
def build (d : Draft) : Except Violation Catalog × Draft :=
  match Catalog.ofDocument d.document with
  | .ok catalog => (.ok catalog, { d with catalog := some catalog })
  | .error violation => (.error violation, d)

end Draft

end EmbedQuery
