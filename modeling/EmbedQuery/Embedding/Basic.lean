import EmbedQuery.Query.Basic
import EmbedQuery.Relationship.Basic

/-!
# Embedding trees

What a query means on a catalog: fields of a table, and in it other tables, each through one
relationship. What could not be resolved stays in its place as an error. Children are found by their
keys; of several with one key the first is meant.
-/

namespace EmbedQuery

/-- Why a part of a query means nothing on a catalog. -/
inductive EmbedError
  | parse (error : ParseError)
  | unknownTable (table : String)
  | relationship (error : RelationshipError)
  | columnNotFound (table column : String)
deriving DecidableEq, Repr

namespace EmbedError

def kind : EmbedError → String
  | parse _ => "parse"
  | unknownTable _ => "unknown_table"
  | relationship (.unknown ..) => "unknown_relationship"
  | relationship (.invalidHint ..) => "invalid_hint"
  | relationship (.ambiguous ..) => "ambiguous_relationship"
  | columnNotFound .. => "column_not_found"

def message : EmbedError → String
  | parse error => error.display
  | unknownTable table => s!"table '{table}' does not exist in the schema catalog"
  | relationship error => error.message
  | columnNotFound table column => s!"column '{column}' does not exist on '{table}'."

end EmbedError

/-- A value selected from the rows of a table. -/
structure Field where
  /-- The key of the value in the result. -/
  key : String
  /-- The column; none for the number of rows. -/
  column : Option String
  cast : Option String := none
  aggregate : Option Aggregate := none
  nullable : Bool
deriving DecidableEq, Repr

/-- A table in its place, without what is embedded in it. -/
structure Embedding where
  /-- The key of the table in the result: its alias or its name. -/
  key : String
  table : String
  label : Option String := none
  cardinality : Cardinality
  /-- Whether there may be no row at all; an embedding of many rows is never null. -/
  nullable : Bool
  join : JoinModifier := .default
  /-- The way from the table outside; none for the outermost. -/
  relationship : Option Relationship := none
  fields : List Field
deriving DecidableEq, Repr

/-- A part of an embedding tree. -/
inductive EmbeddingNode
  /-- A table with what is embedded in it. -/
  | resolved (embedding : Embedding) (children : List EmbeddingNode)
  /-- An error in the place of an item, with the key that the item would have had. -/
  | failed (key : Option String) (error : EmbedError)

/-- The meaning of a query: the outermost table and what is embedded in it. -/
structure EmbeddingTree where
  root : Embedding
  children : List EmbeddingNode

/-! ### Finding parts -/

def Embedding.field? (e : Embedding) (key : String) : Option Field := e.fields.find? (·.key == key)

namespace EmbeddingNode

/-- The key, if there is one: what could not be read has none. -/
def key? : EmbeddingNode → Option String
  | resolved embedding _ => some embedding.key
  | failed key _ => key

/-- The first of several parts with a key. -/
def find? (nodes : List EmbeddingNode) (key : String) : Option EmbeddingNode :=
  nodes.find? (·.key? == some key)

/-- The table and what is embedded in it, if the part was resolved. -/
def resolved? : EmbeddingNode → Option EmbeddingTree
  | resolved embedding children => some ⟨embedding, children⟩
  | failed .. => none

def error? : EmbeddingNode → Option EmbedError
  | resolved .. => none
  | failed _ error => some error

/-- The part that a path of keys leads to. -/
def get? (nodes : List EmbeddingNode) : List String → Option EmbeddingNode
  | [] => none
  | [key] => find? nodes key
  | key :: path =>
    match find? nodes key with
    | some (resolved _ children) => get? children path
    | some (failed ..) | none => none

end EmbeddingNode

namespace EmbeddingTree

/-- The part that a path of keys leads to from the root. The empty path leads nowhere. -/
def get? (t : EmbeddingTree) (path : List String) : Option EmbeddingNode :=
  EmbeddingNode.get? t.children path

/-- The tree below a path of keys; the empty path leads to the root. -/
def subtree? (t : EmbeddingTree) : List String → Option EmbeddingTree
  | [] => some t
  | path => do (← t.get? path).resolved?

def child? (t : EmbeddingTree) (key : String) : Option EmbeddingNode :=
  EmbeddingNode.find? t.children key

end EmbeddingTree

/-! ### Errors and size -/

mutual

/-- The errors of a part, in query order. -/
def EmbeddingNode.errors : EmbeddingNode → List EmbedError
  | .resolved _ children => nodeErrors children
  | .failed _ error => [error]

def nodeErrors : List EmbeddingNode → List EmbedError
  | [] => []
  | node :: nodes => node.errors ++ nodeErrors nodes

end

mutual

/-- The number of parts in a part, itself included. -/
def EmbeddingNode.size : EmbeddingNode → Nat
  | .resolved _ children => nodesSize children + 1
  | .failed .. => 1

def nodesSize : List EmbeddingNode → Nat
  | [] => 0
  | node :: nodes => node.size + nodesSize nodes

end

namespace EmbeddingTree

def errors (t : EmbeddingTree) : List EmbedError := nodeErrors t.children

def size (t : EmbeddingTree) : Nat := nodesSize t.children

end EmbeddingTree

end EmbedQuery
