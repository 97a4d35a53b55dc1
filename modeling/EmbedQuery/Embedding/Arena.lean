import EmbedQuery.Embedding.Basic

/-!
# Numbered embedding trees

The flat view of an embedding tree: its parts in one list, numbered from 0, each behind everything
inside it. Every number below that of a table but above that of the part before it lies inside the
table, so the numbers of children tell the whole shape.
-/

namespace EmbedQuery

namespace EmbeddingArena

/-- A part whose children are given by their numbers. -/
inductive Node
  | resolved (embedding : Embedding) (children : List Nat)
  | failed (key : Option String) (error : EmbedError)
deriving DecidableEq, Repr

end EmbeddingArena

/-- The root, the numbers of its children, and all parts below it. -/
structure EmbeddingArena where
  root : Embedding
  children : List Nat
  nodes : List EmbeddingArena.Node
deriving DecidableEq, Repr

mutual

/-- The parts in a part, numbered from `next` on; the last is the part itself. -/
def EmbeddingNode.flatten (next : Nat) : EmbeddingNode → List EmbeddingArena.Node
  | .resolved embedding children =>
    let (ids, nodes) := flattenNodes next children
    nodes ++ [.resolved embedding ids]
  | .failed key error => [.failed key error]

/-- The numbers of several parts, and the parts in them, numbered from `next` on. -/
def flattenNodes (next : Nat) : List EmbeddingNode → List Nat × List EmbeddingArena.Node
  | [] => ([], [])
  | node :: nodes =>
    let flat := node.flatten next
    let (ids, more) := flattenNodes (next + flat.length) nodes
    ((next + flat.length - 1) :: ids, flat ++ more)

end

def EmbeddingTree.arena (t : EmbeddingTree) : EmbeddingArena :=
  let (children, nodes) := flattenNodes 0 t.children
  ⟨t.root, children, nodes⟩

namespace EmbeddingArena

def Node.isFailed : Node → Bool
  | resolved .. => false
  | failed .. => true

/-- The key of a part, if there is one. -/
def Node.key? : Node → Option String
  | resolved embedding _ => some embedding.key
  | failed key _ => key

def hasErrors (a : EmbeddingArena) : Bool := a.nodes.any Node.isFailed

/-- The first of the parts of given numbers that has a key. -/
def find? (a : EmbeddingArena) (ids : List Nat) (key : String) : Option Node :=
  (ids.filterMap (a.nodes[·]?)).find? (·.key? == some key)

/-- The numbers of the children of the table that a path of keys leads to, from the table whose
children have the given numbers. -/
def childIds? (a : EmbeddingArena) (ids : List Nat) : List String → Option (List Nat)
  | [] => some ids
  | key :: path =>
    match a.find? ids key with
    | some (.resolved _ ids) => a.childIds? ids path
    | some (.failed ..) | none => none

end EmbeddingArena

end EmbedQuery
