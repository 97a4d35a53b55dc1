import EmbedQuery.Query.ParseError

/-!
# Select lists

A query is a list of items: columns, counts, wildcards and embedded resources, which may have a list
of their own. An item that could not be read stays in its place as an error (`SelectItem.invalid`),
so that the items around it keep theirs.
-/

namespace EmbedQuery

/-- What becomes of the rows that have no match in an embedded resource. -/
inductive JoinModifier
  /-- Nothing was written. -/
  | default
  /-- `!inner`: they are left out. -/
  | inner
  /-- `!left`: they are kept. -/
  | left
deriving DecidableEq, Inhabited, Repr

namespace JoinModifier

/-- The modifier of that name; every other name is a hint. -/
def ofName? (name : String) : Option JoinModifier :=
  if name = "inner" then some inner else if name = "left" then some left else none

/-- The name of the modifier as written, if one was. -/
def name? : JoinModifier → Option String
  | default => none
  | inner => some "inner"
  | left => some "left"

/-- The name of the modifier, `default` if none was written. -/
def label (join : JoinModifier) : String := join.name?.getD "default"

end JoinModifier

inductive Aggregate
  | avg
  | count
  | max
  | min
  | sum
deriving DecidableEq, Inhabited, Repr

namespace Aggregate

def name : Aggregate → String
  | avg => "avg"
  | count => "count"
  | max => "max"
  | min => "min"
  | sum => "sum"

def ofName? (name : String) : Option Aggregate :=
  [avg, count, max, min, sum].find? (·.name == name)

end Aggregate

/-- A column as a query names it. -/
structure ColumnRef where
  name : String
  /-- The alias, written before a colon. -/
  label : Option String := none
  /-- The type to cast to, written after two colons. -/
  cast : Option String := none
  aggregate : Option Aggregate := none
  span : Span
deriving DecidableEq, Repr

/-- The key of the column in the result: the alias, or else the function, or else the column. -/
def ColumnRef.key (c : ColumnRef) : String :=
  c.label.getD ((c.aggregate.map Aggregate.name).getD c.name)

/-- An embedded resource as a query names it, without its list. -/
structure Resource where
  name : String
  /-- The alias, written before a colon. -/
  label : Option String := none
  /-- The column or constraint that picks the relationship. -/
  hint : Option String := none
  join : JoinModifier := .default
  span : Span
deriving DecidableEq, Repr

/-- The key of the resource in the result: the alias, or else the table. -/
def Resource.key (r : Resource) : String := r.label.getD r.name

/-- An item of a select list. -/
inductive SelectItem
  /-- `*` -/
  | wildcard (span : Span)
  /-- A column, which may turn out to name a related table. -/
  | column (column : ColumnRef)
  /-- `count()`: the number of rows. -/
  | count (label cast : Option String) (span : Span)
  /-- A resource without a list. -/
  | bare (resource : Resource)
  /-- A resource with a list, which may be empty. -/
  | block (resource : Resource) (items : List SelectItem)
  /-- An error in the place of an item, with what had been read of the item. -/
  | invalid (error : ParseError) (discarded : List SelectItem)

structure QueryTree where
  items : List SelectItem

/-! ### Errors -/

mutual

/-- The errors of an item, in query order. What an error discarded is not looked into. -/
def SelectItem.errors : SelectItem → List ParseError
  | .wildcard _ | .column _ | .count .. | .bare _ => []
  | .block _ items => listErrors items
  | .invalid error _ => [error]

def listErrors : List SelectItem → List ParseError
  | [] => []
  | item :: items => item.errors ++ listErrors items

end

theorem listErrors_eq_flatMap (items : List SelectItem) :
    listErrors items = items.flatMap SelectItem.errors := by
  induction items with
  | nil => rfl
  | cons item items ih => rw [listErrors, ih, List.flatMap_cons]

theorem listErrors_append (items more : List SelectItem) :
    listErrors (items ++ more) = listErrors items ++ listErrors more := by
  simp [listErrors_eq_flatMap]

def QueryTree.errors (t : QueryTree) : List ParseError := listErrors t.items

end EmbedQuery
