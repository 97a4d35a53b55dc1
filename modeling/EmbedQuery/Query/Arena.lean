import EmbedQuery.Query.Basic

/-!
# Numbered queries

The flat view of a query: its resources in one list, numbered from 0, and the number in the place of
each resource. A resource is numbered behind everything inside it, and the resources that an error
discarded are numbered too, although no item refers to them.
-/

namespace EmbedQuery

namespace Arena

/-- An item with the number of a resource in its place. -/
inductive Item
  | wildcard (span : Span)
  | column (column : ColumnRef)
  | count (label cast : Option String) (span : Span)
  | embed (id : Nat)
  | invalid (error : ParseError)
deriving DecidableEq, Repr

def Item.id? : Item → Option Nat
  | embed id => some id
  | wildcard _ | column _ | count .. | invalid _ => none

/-- A resource; `select` is its list, if it has one. -/
structure Node where
  resource : Resource
  select : Option (List Item)
deriving DecidableEq, Repr

/-- The numbers the list of a resource refers to. -/
def Node.ids (n : Node) : List Nat := (n.select.getD []).filterMap Item.id?

end Arena

/-- A list of items and the resources its numbers refer to. -/
structure Arena where
  items : List Arena.Item
  nodes : List Arena.Node
deriving DecidableEq, Repr

mutual

/-- The flat view of an item whose resources are numbered from `next` on. -/
def SelectItem.flatten (next : Nat) : SelectItem → Arena.Item × List Arena.Node
  | .wildcard span => (.wildcard span, [])
  | .column column => (.column column, [])
  | .count label cast span => (.count label cast span, [])
  | .bare resource => (.embed next, [⟨resource, none⟩])
  | .block resource items =>
    let (select, nodes) := flattenList next items
    (.embed (next + nodes.length), nodes ++ [⟨resource, some select⟩])
  | .invalid error discarded => (.invalid error, (flattenList next discarded).2)

/-- The flat view of a list whose resources are numbered from `next` on. -/
def flattenList (next : Nat) : List SelectItem → List Arena.Item × List Arena.Node
  | [] => ([], [])
  | item :: items =>
    let (flat, nodes) := item.flatten next
    let (flats, more) := flattenList (next + nodes.length) items
    (flat :: flats, nodes ++ more)

end

def QueryTree.arena (t : QueryTree) : Arena :=
  let (items, nodes) := flattenList 0 t.items
  ⟨items, nodes⟩

/-- The numbers that the items refer to, in themselves or through the lists of others. A list refers
to smaller numbers only, so one sweep from the last resource to the first finds them all. -/
def Arena.reachableIds (a : Arena) : List Nat :=
  a.nodes.zipIdx.foldr
    (fun (node, id) ids => if id ∈ ids then node.ids ++ ids else ids)
    (a.items.filterMap Item.id?)

/-- The resources that the items refer to, with their numbers. -/
def Arena.reachable (a : Arena) : List (Nat × Arena.Node) :=
  let ids := a.reachableIds
  (a.nodes.zipIdx.filter fun (_, id) => id ∈ ids).map fun (node, id) => (id, node)

end EmbedQuery
