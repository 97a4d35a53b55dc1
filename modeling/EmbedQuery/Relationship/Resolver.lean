import EmbedQuery.Relationship.Index

/-!
# Picking a relationship

Between two tables there has to be one way only. Where there are several, a hint narrows them down:
it names the foreign key, or one of its columns. The two ways through a key of a table on itself
share name and columns, so there a referring column means forward and a column referred to means
reverse.
-/

namespace EmbedQuery

/-- A catalog with the index of its foreign keys. -/
structure Resolver where
  catalog : Catalog
  index : RelationshipIndex := .ofKeys catalog.foreignKeys
  index_eq : index = .ofKeys catalog.foreignKeys := by rfl

/-- Whether a hint fits a way. -/
def Candidate.matchesHint (c : Candidate) (hint : String) : Bool :=
  c.key.name == hint ||
    if c.key.isSelfReferencing then
      match c.direction with
      | .forward => c.key.columns.contains hint
      | .reverse => c.key.referencesColumns.contains hint
    else c.key.mentions hint

/-- How many rows of the child belong to one of the parent: a row refers to at most one row, and is
referred to by at most one if the referring columns are a key of their table. -/
def Catalog.cardinality (catalog : Catalog) (c : Candidate) : Cardinality :=
  match c.direction with
  | .forward => .toOne
  | .reverse =>
    if (catalog.table? c.key.table).any (·.isUniqueKey c.key.columns) then .toOne else .toMany

namespace Resolver

/-- The ways from `parent` to `child`. -/
def candidates (r : Resolver) (parent child : String) : List Candidate :=
  r.index.candidates parent child

/-- The ways from `parent` to `child` that a hint leaves. -/
def remaining (r : Resolver) (parent child : String) : Option String → List Candidate
  | none => r.candidates parent child
  | some hint => (r.candidates parent child).filter (·.matchesHint hint)

/-- The one way from `parent` to `child` that a hint leaves. -/
def relationship (r : Resolver) (parent child : String) (hint : Option String) :
    Except RelationshipError Relationship :=
  match r.remaining parent child hint with
  | [chosen] =>
    .ok
      { position := chosen.position
        constraint := chosen.key.name
        direction := chosen.direction
        cardinality := r.catalog.cardinality chosen
        candidates := (r.candidates parent child).length }
  | [] =>
    .error <| match hint with
      | some hint => .invalidHint parent child hint
      | none => .unknown parent child
  | several => .error (.ambiguous parent child (several.map (·.key.name)))

end Resolver

end EmbedQuery
