import EmbedQuery.Json.Basic

/-!
# Writing JSON

Two layouts: on one line without blanks, and over several lines with two blanks for each level,
where an empty array or object stays on its line.
-/

namespace EmbedQuery.Json

/-- How a value is laid out: on one line, or over several lines from a level on. -/
inductive Layout
  | line
  | lines (level : Nat)
deriving DecidableEq, Repr

namespace Layout

/-- The layout one level further in. -/
def deeper : Layout → Layout
  | line => line
  | lines level => lines (level + 1)

/-- What stands before an item, or before the bracket that closes them. -/
def lineBreak : Layout → List Char
  | line => []
  | lines level => '\n' :: List.replicate (2 * level) ' '

/-- What stands between a key and its value. -/
def colon : Layout → List Char
  | line => [':']
  | lines _ => [':', ' ']

end Layout

mutual

/-- The text of a value. -/
def render (layout : Layout) : Json → List Char
  | null => ['n', 'u', 'l', 'l']
  | bool true => ['t', 'r', 'u', 'e']
  | bool false => ['f', 'a', 'l', 's', 'e']
  | number literal => literal
  | string literal => '"' :: literal ++ ['"']
  | array [] => ['[', ']']
  | array (item :: items) =>
    '[' :: layout.deeper.lineBreak ++ render layout.deeper item ++
      (renderItems layout.deeper items ++ (layout.lineBreak ++ [']']))
  | object [] => ['{', '}']
  | object ((key, value) :: members) =>
    '{' :: layout.deeper.lineBreak ++ '"' :: key ++ '"' :: layout.colon ++
      render layout.deeper value ++
      (renderMembers layout.deeper members ++ (layout.lineBreak ++ ['}']))

/-- The text of the items behind the first. -/
def renderItems (layout : Layout) : List Json → List Char
  | [] => []
  | item :: items => ',' :: layout.lineBreak ++ (render layout item ++ renderItems layout items)

/-- The text of the members behind the first. -/
def renderMembers (layout : Layout) : List (List Char × Json) → List Char
  | [] => []
  | (key, value) :: members =>
    ',' :: layout.lineBreak ++ '"' :: key ++ '"' :: layout.colon ++
      (render layout value ++ renderMembers layout members)

end

end EmbedQuery.Json
