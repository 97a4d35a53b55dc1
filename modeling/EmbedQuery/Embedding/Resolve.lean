import EmbedQuery.Embedding.Basic
import EmbedQuery.Query.Parser
import EmbedQuery.Relationship.Resolver

/-!
# Resolving queries

Item by item, a select list on a table becomes fields and embedded tables. A plain name means a
related table if there is one of that name, and a column otherwise. An item that means nothing
becomes an error in its place and does not touch the items beside it.
-/

namespace EmbedQuery

/-- What a select list means on a table. -/
structure Selection where
  fields : List Field := []
  children : List EmbeddingNode := []

namespace Selection

/-- What two lists one after the other mean. -/
def append (s t : Selection) : Selection := ⟨s.fields ++ t.fields, s.children ++ t.children⟩

instance : Append Selection := ⟨append⟩

def ofNode (node : EmbeddingNode) : Selection := ⟨[], [node]⟩

def ofField (field : Field) : Selection := ⟨[field], []⟩

end Selection

/-- Every column of a table, in order. -/
def Table.allColumns (t : Table) : Selection :=
  ⟨t.columns.map fun c => ⟨c.name, some c.name, none, none, c.nullable⟩, []⟩

/-- Whether a value taken from a column may be null: a count never is, and every other function is
null over no rows. -/
def Column.nullableUnder (c : Column) : Option Aggregate → Bool
  | none => c.nullable
  | some .count => false
  | some .avg | some .max | some .min | some .sum => true

/-- The field of the number of rows. -/
def Field.count (label cast : Option String) : Field :=
  ⟨label.getD Aggregate.count.name, none, cast, some .count, false⟩

/-- A column that stands for itself may name a related table. -/
def ColumnRef.isPlain (c : ColumnRef) : Bool := c.cast.isNone && c.aggregate.isNone

/-- The related table that a plain column names. -/
def ColumnRef.toResource (c : ColumnRef) : Resource :=
  { name := c.name, label := c.label, span := c.span }

namespace Resolver

/-- Whether a column of the table that holds a foreign key may be null there. -/
def hasNullableSource (r : Resolver) (relationship : Relationship) : Bool :=
  (r.catalog.foreignKeys[relationship.position]?).any fun key =>
    (r.catalog.table? key.table).any fun table =>
      key.columns.any fun name => (table.column? name).any Column.nullable

/-- Whether an embedded row may be missing. Where several foreign keys join two tables, no forward
key is trusted to have its row. -/
def mayBeMissing (r : Resolver) (relationship : Relationship) (join : JoinModifier) : Bool :=
  match relationship.cardinality, join, relationship.direction with
  | .toMany, _, _ => false
  | .toOne, .inner, _ => false
  | .toOne, .left, _ => true
  | .toOne, .default, .reverse => true
  | .toOne, .default, .forward =>
    relationship.wasAmbiguous || r.hasNullableSource relationship

/-- Embeds a resource in a table; `select` says what its list means on the table it names. -/
def embed (r : Resolver) (parent : Table) (resource : Resource) (select : Table → Selection) :
    EmbeddingNode :=
  match r.relationship parent.name resource.name resource.hint with
  | .error error => .failed (some resource.key) (.relationship error)
  | .ok relationship =>
    match r.catalog.table? resource.name with
    | none => .failed (some resource.key) (.unknownTable resource.name)
    | some table =>
      let selection := select table
      .resolved
        { key := resource.key
          table := table.name
          label := resource.label
          cardinality := relationship.cardinality
          nullable := r.mayBeMissing relationship resource.join
          join := resource.join
          relationship := some relationship
          fields := selection.fields }
        selection.children

/-- Whether a name stands for a table related to the given one. -/
def isRelated (r : Resolver) (table : Table) (name : String) : Bool :=
  (r.catalog.table? name).isSome && !(r.candidates table.name name).isEmpty

def selectColumn (r : Resolver) (table : Table) (c : ColumnRef) : Selection :=
  if c.isPlain && r.isRelated table c.name then
    .ofNode (r.embed table c.toResource Table.allColumns)
  else
    match table.column? c.name with
    | none => .ofNode (.failed (some c.key) (.columnNotFound table.name c.name))
    | some source =>
      .ofField ⟨c.key, some c.name, c.cast, c.aggregate, source.nullableUnder c.aggregate⟩

mutual

def selectItem (r : Resolver) (table : Table) : SelectItem → Selection
  | .wildcard _ => table.allColumns
  | .column c => r.selectColumn table c
  | .count label cast _ => .ofField (.count label cast)
  | .bare resource => .ofNode (r.embed table resource Table.allColumns)
  | .block resource items =>
    .ofNode (r.embed table resource fun target => selectList r target items)
  | .invalid error _ => .ofNode (.failed none (.parse error))

def selectList (r : Resolver) (table : Table) : List SelectItem → Selection
  | [] => {}
  | item :: items => selectItem r table item ++ selectList r table items

end

/-- What a query means on a table. A query without items selects every column. -/
def selectQuery (r : Resolver) (table : Table) (query : QueryTree) : Selection :=
  match query.items with
  | [] => table.allColumns
  | items => r.selectList table items

/-- The meaning of a query on the table of that name. -/
def resolve (r : Resolver) (root : String) (query : QueryTree) :
    Except EmbedError EmbeddingTree :=
  match r.catalog.table? root with
  | none => .error (.unknownTable root)
  | some table =>
    let selection := r.selectQuery table query
    .ok
      { root :=
          { key := root
            table := root
            cardinality := .toMany
            nullable := false
            fields := selection.fields }
        children := selection.children }

/-- The meaning of the text of a query on the table of that name. -/
def resolveText (r : Resolver) (root query : String) : Except EmbedError EmbeddingTree :=
  r.resolve root (QueryTree.parse query)

end Resolver

end EmbedQuery
