import EmbedQuery.Json.Literal

/-!
# JSON values

A value is kept as its text spells it: numbers, strings and keys are literals, and an object keeps
its members in order, repeated keys included. So a part of a document that nobody asks for can be
read without being understood, and reading what was written gives the same value back.
-/

namespace EmbedQuery

/-- A JSON value. Strings and keys are literals without their quotes. -/
inductive Json
  | null
  | bool (value : Bool)
  | number (literal : List Char)
  | string (literal : List Char)
  | array (items : List Json)
  | object (members : List (List Char × Json))

namespace Json

/-- The value of a text. -/
def ofText (text : String) : Json := string (Literal.escape text.toList)

/-- The value of a number. -/
def ofNat (n : Nat) : Json := number (Nat.toDigits 10 n)

/-- A text, or null. -/
def ofText? : Option String → Json
  | none => null
  | some text => ofText text

/-- An object whose keys are given as texts. -/
def record (members : List (String × Json)) : Json :=
  object (members.map fun (key, value) => (Literal.escape key.toList, value))

/-- The text, if the value is a string of well-formed Unicode. -/
def text? : Json → Option String
  | string literal => (Literal.decode literal).map String.ofList
  | null | bool _ | number _ | array _ | object _ => none

/-- The truth value, if the value is one. -/
def bool? : Json → Option Bool
  | bool value => some value
  | null | number _ | string _ | array _ | object _ => none

/-- The items, if the value is an array in which each can be read. -/
def list? (read : Json → Option α) : Json → Option (List α)
  | array items => items.mapM read
  | null | bool _ | number _ | string _ | object _ => none

end Json

end EmbedQuery
