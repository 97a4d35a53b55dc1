import EmbedQuery.Identifier
import EmbedQuery.Query.Basic

/-!
# The canonical form of a query

A query is written as the tokens it stands for, without blanks: names bare where possible, the hint
before the join modifier, and errors left out.
-/

namespace EmbedQuery

/-- A token as the canonical form writes it. -/
def TokenKind.spelling : TokenKind → String
  | identifier name => spellName name
  | star => "*"
  | comma => ","
  | leftParen => "("
  | rightParen => ")"
  | colon => ":"
  | doubleColon => "::"
  | bang => "!"
  | dot => "."
  | eof => ""
  | error message => message

/-- `name:`, if there is an alias. -/
def aliasTokens : Option String → List TokenKind
  | none => []
  | some label => [.identifier label, .colon]

/-- `::type`, if there is a cast. -/
def castTokens : Option String → List TokenKind
  | none => []
  | some target => [.doubleColon, .identifier target]

/-- `!name`, if there is a modifier. -/
def modifierTokens : Option String → List TokenKind
  | none => []
  | some name => [.bang, .identifier name]

/-- `.function()`, if there is a function. -/
def aggregateTokens : Option Aggregate → List TokenKind
  | none => []
  | some aggregate => [.dot, .identifier aggregate.name, .leftParen, .rightParen]

/-- The tokens of a column. -/
def ColumnRef.tokens (c : ColumnRef) : List TokenKind :=
  aliasTokens c.label ++ .identifier c.name :: (aggregateTokens c.aggregate ++ castTokens c.cast)

/-- The tokens of a resource, without its list. -/
def Resource.tokens (r : Resource) : List TokenKind :=
  aliasTokens r.label ++ .identifier r.name ::
    (modifierTokens r.hint ++ modifierTokens r.join.name?)

mutual

/-- The tokens of an item; an error has none. -/
def SelectItem.tokens : SelectItem → Option (List TokenKind)
  | .wildcard _ => some [.star]
  | .column column => some column.tokens
  | .count label cast _ =>
    some (aliasTokens label ++ .identifier "count" :: .leftParen :: .rightParen :: castTokens cast)
  | .bare resource => some resource.tokens
  | .block resource items =>
    some (resource.tokens ++ .leftParen ::
      ([TokenKind.comma].intercalate (itemTokens items) ++ [.rightParen]))
  | .invalid .. => none

/-- The tokens of each item of a list that is no error. -/
def itemTokens : List SelectItem → List (List TokenKind)
  | [] => []
  | item :: items => item.tokens.toList ++ itemTokens items

end

theorem itemTokens_eq_filterMap (items : List SelectItem) :
    itemTokens items = items.filterMap SelectItem.tokens := by
  induction items with
  | nil => rfl
  | cons item items ih =>
    rw [itemTokens, ih, List.filterMap_cons]
    cases item.tokens <;> rfl

/-- The tokens of a list, with commas between its items. -/
def listTokens (items : List SelectItem) : List TokenKind :=
  [TokenKind.comma].intercalate (itemTokens items)

/-- The canonical form of a query. -/
def QueryTree.canonical (t : QueryTree) : String :=
  String.join ((listTokens t.items).map TokenKind.spelling)

end EmbedQuery
