import Std.Data.HashMap
import EmbedQuery.Relationship.Basic

/-!
# The index of foreign keys

Foreign keys by the pair of tables they connect, so that a look-up does not go through all keys. A
key is entered under both orders of its pair, and once when both tables are the same.
-/

namespace EmbedQuery

/-- The foreign keys that connect two tables, with their places, in order: first by the one table
and then by the other. -/
structure RelationshipIndex where
  pairs : Std.HashMap String (Std.HashMap String (List (Nat × ForeignKey))) := {}

namespace RelationshipIndex

/-- Enters a key at the end of the list of a pair. -/
def push (index : RelationshipIndex) (a b : String) (entry : Nat × ForeignKey) :
    RelationshipIndex :=
  let targets := index.pairs.getD a {}
  ⟨index.pairs.insert a (targets.insert b (targets.getD b [] ++ [entry]))⟩

/-- Enters a key under the pair of its tables, in both orders. -/
def add (index : RelationshipIndex) (entry : Nat × ForeignKey) : RelationshipIndex :=
  let (_, key) := entry
  let index := index.push key.table key.referencesTable entry
  if key.isSelfReferencing then index else index.push key.referencesTable key.table entry

/-- The index of a list of keys. -/
def ofKeys (keys : List ForeignKey) : RelationshipIndex :=
  (keys.zipIdx.map Prod.swap).foldl add {}

/-- The keys that connect two tables, in either direction. -/
def between (index : RelationshipIndex) (a b : String) : List (Nat × ForeignKey) :=
  (index.pairs.getD a {}).getD b []

/-- The keys that `holder` holds on `other`, as ways in one direction. -/
def heldBy (entries : List (Nat × ForeignKey)) (holder other : String) (direction : Direction) :
    List Candidate :=
  (entries.filter fun (_, key) => key.table == holder && key.referencesTable == other).map
    fun (position, key) => ⟨position, key, direction⟩

/-- The ways from `parent` to `child`: first the keys that `parent` holds, then those that `child`
holds, each group in order. A key of a table on itself is in both. -/
def candidates (index : RelationshipIndex) (parent child : String) : List Candidate :=
  heldBy (index.between parent child) parent child .forward ++
    heldBy (index.between parent child) child parent .reverse

end RelationshipIndex

end EmbedQuery
