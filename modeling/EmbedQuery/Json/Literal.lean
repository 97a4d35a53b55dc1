/-!
# String literals

The text between the quotes of a JSON string. `escape` writes a text, and `decode` reads one:
escapes name UTF-16 units, so a character beyond U+FFFF takes two of them, and a surrogate without
its partner is no text.
-/

namespace EmbedQuery.Json.Literal

/-- The four hexadecimal digits of a UTF-16 unit, in lower case. -/
def hexDigits (n : Nat) : List Char :=
  [n / 0x1000 % 16, n / 0x100 % 16, n / 0x10 % 16, n % 16].map Nat.digitChar

/-- A character as a literal writes it: quote, backslash and controls are escaped. -/
def escapeChar (c : Char) : List Char :=
  if c = '"' then ['\\', '"']
  else if c = '\\' then ['\\', '\\']
  else if c = '\x08' then ['\\', 'b']
  else if c = '\x0c' then ['\\', 'f']
  else if c = '\n' then ['\\', 'n']
  else if c = '\r' then ['\\', 'r']
  else if c = '\t' then ['\\', 't']
  else if c.toNat < 0x20 then '\\' :: 'u' :: hexDigits c.toNat
  else [c]

/-- A text as a literal. -/
def escape (text : List Char) : List Char := text.flatMap escapeChar

/-- The value of a hexadecimal digit of either case. -/
def hexValue? (c : Char) : Option Nat :=
  if '0' ≤ c ∧ c ≤ '9' then some (c.toNat - '0'.toNat)
  else if 'a' ≤ c ∧ c ≤ 'f' then some (c.toNat - 'a'.toNat + 10)
  else if 'A' ≤ c ∧ c ≤ 'F' then some (c.toNat - 'A'.toNat + 10)
  else none

/-- The UTF-16 unit that four digits name. -/
def unit? (a b c d : Char) : Option Nat := do
  let high := (← hexValue? a) * 16 + (← hexValue? b)
  let low := (← hexValue? c) * 16 + (← hexValue? d)
  return high * 256 + low

/-- The character that an escape of one letter names. -/
def escaped? : Char → Option Char
  | '"' => some '"'
  | '\\' => some '\\'
  | '/' => some '/'
  | 'b' => some '\x08'
  | 'f' => some '\x0c'
  | 'n' => some '\n'
  | 'r' => some '\r'
  | 't' => some '\t'
  | _ => none

/-- A piece of a literal: a character, or a UTF-16 unit named by an escape. -/
inductive Piece
  | char (c : Char)
  | unit (n : Nat)
deriving DecidableEq, Repr

/-- The pieces of a literal, if its escapes are well formed and no control stands in it bare. -/
def pieces? : List Char → Option (List Piece)
  | [] => some []
  | '\\' :: 'u' :: a :: b :: c :: d :: rest => do
    let unit ← unit? a b c d
    return .unit unit :: (← pieces? rest)
  | '\\' :: c :: rest => do
    let c ← escaped? c
    return .char c :: (← pieces? rest)
  | c :: rest =>
    if c = '\\' ∨ c = '"' ∨ c.toNat < 0x20 then none
    else do return .char c :: (← pieces? rest)

/-- A UTF-16 unit that begins a character beyond U+FFFF. -/
def isHigh (n : Nat) : Bool := 0xD800 ≤ n && n < 0xDC00

/-- A UTF-16 unit that ends a character beyond U+FFFF. -/
def isLow (n : Nat) : Bool := 0xDC00 ≤ n && n < 0xE000

/-- The characters of the pieces, if every surrogate has its partner. -/
def join? : List Piece → Option (List Char)
  | [] => some []
  | .char c :: rest => do return c :: (← join? rest)
  | .unit high :: .unit low :: rest =>
    if isHigh high then
      if isLow low then do
        let n := 0x10000 + (high - 0xD800) * 0x400 + (low - 0xDC00)
        return Char.ofNat n :: (← join? rest)
      else none
    else if isLow high then none
    else do return Char.ofNat high :: (← join? (.unit low :: rest))
  | .unit n :: rest =>
    if isHigh n || isLow n then none else do return Char.ofNat n :: (← join? rest)

/-- The text of a literal. -/
def decode (literal : List Char) : Option (List Char) := do join? (← pieces? literal)

end EmbedQuery.Json.Literal
