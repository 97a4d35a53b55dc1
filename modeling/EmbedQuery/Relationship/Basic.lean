import EmbedQuery.Schema.Catalog

/-!
# Relationships

A foreign key relates the rows of two tables, and a query may go through it from either side: from
the table that holds the key (*forward*) or from the table it refers to (*reverse*). Seen from the
table on the outside of an embedding, the *parent*, such a way into the embedded table, the *child*,
is a candidate.
-/

namespace EmbedQuery

/-- How many rows of the child belong to a row of the parent. -/
inductive Cardinality
  | toOne
  | toMany
deriving DecidableEq, Inhabited, Repr

def Cardinality.name : Cardinality → String
  | toOne => "to_one"
  | toMany => "to_many"

/-- Which side holds the foreign key. -/
inductive Direction
  /-- The parent refers to the child. -/
  | forward
  /-- The child refers to the parent. -/
  | reverse
deriving DecidableEq, Inhabited, Repr

def Direction.name : Direction → String
  | forward => "forward"
  | reverse => "reverse"

/-- A foreign key seen from the parent; `position` is its place among the keys of the catalog. -/
structure Candidate where
  position : Nat
  key : ForeignKey
  direction : Direction
deriving DecidableEq, Repr

/-- The way an embedding goes. -/
structure Relationship where
  /-- The place of the foreign key among the keys of the catalog. -/
  position : Nat
  constraint : String
  direction : Direction
  cardinality : Cardinality
  /-- The number of ways between the two tables, whether a hint excludes them or not. -/
  candidates : Nat
deriving DecidableEq, Repr

/-- Whether only a hint could tell this way from others. -/
def Relationship.wasAmbiguous (r : Relationship) : Bool := r.candidates > 1

/-- Why there is no single way between two tables. -/
inductive RelationshipError
  /-- No foreign key connects the tables. -/
  | unknown (parent child : String)
  /-- The hint fits none of the ways. -/
  | invalidHint (parent child hint : String)
  /-- Several ways are left, through the keys of these names. -/
  | ambiguous (parent child : String) (constraints : List String)
deriving DecidableEq, Repr

def RelationshipError.message : RelationshipError → String
  | unknown parent child => s!"could not find the relation between {parent} and {child}"
  | invalidHint parent child hint =>
    s!"could not find the relation between {parent} and {child} using the hint '{hint}'"
  | ambiguous parent child _ =>
    s!"Could not embed because more than one relationship was found for '{child}' and '{parent}'" ++
      s!" you need to hint the column with {child}!<columnName> ?"

end EmbedQuery
