import EmbedQuery.Schema.Violation

/-!
# Catalogs

A catalog is a schema without violations, in which the columns of primary keys have no nulls. Both
facts are part of the type, so whoever holds a catalog may rely on them: the tables and columns of
every foreign key exist.
-/

namespace EmbedQuery

/-- Tables and foreign keys as a document lists them. -/
structure Document where
  tables : List Table
  foreignKeys : List ForeignKey := []
deriving DecidableEq, Repr

/-- Tables and foreign keys without violations. -/
structure Catalog where
  tables : List Table
  foreignKeys : List ForeignKey
  sound : violations tables foreignKeys = []
  normal : ∀ t ∈ tables, t.IsNormal
deriving DecidableEq

namespace Catalog

/-- The catalog of a document, or the first violation found. -/
def ofDocument (d : Document) : Except Violation Catalog :=
  match h : violations (d.tables.map Table.normalize) d.foreignKeys with
  | [] =>
    .ok
      { tables := d.tables.map Table.normalize
        foreignKeys := d.foreignKeys
        sound := h
        normal := fun t ht => by
          obtain ⟨u, -, rfl⟩ := List.mem_map.1 ht
          exact u.isNormal_normalize }
  | violation :: _ => .error violation

/-- The document that lists the catalog. -/
def toDocument (c : Catalog) : Document := ⟨c.tables, c.foreignKeys⟩

/-- The table of that name. -/
def table? (c : Catalog) (name : String) : Option Table := findTable c.tables name

/-- Whether the document of a catalog gives the same catalog again. -/
def isReproduced (c : Catalog) : Bool :=
  match ofDocument c.toDocument with
  | .ok c' => decide (c' = c)
  | .error _ => false

end Catalog

end EmbedQuery
