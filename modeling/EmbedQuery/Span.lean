/-!
# Spans

A span is a range of bytes of a query in UTF-8, its start included and its stop not. Tokens, items
and errors carry one. `Span.text` cuts the range out, and gives nothing when the range leaves the
text or would split a character.
-/

namespace EmbedQuery

/-- A range of bytes: `start` belongs to it and `stop` does not. -/
structure Span where
  start : Nat := 0
  stop : Nat := 0
deriving DecidableEq, Inhabited, Repr

/-- The number of bytes `cs` takes in UTF-8. -/
def byteLength : List Char → Nat
  | [] => 0
  | c :: cs => c.utf8Size + byteLength cs

@[simp] theorem byteLength_nil : byteLength [] = 0 := rfl

@[simp] theorem byteLength_cons (c : Char) (cs : List Char) :
    byteLength (c :: cs) = c.utf8Size + byteLength cs := rfl

@[simp] theorem byteLength_append (cs ds : List Char) :
    byteLength (cs ++ ds) = byteLength cs + byteLength ds := by
  induction cs with
  | nil => simp
  | cons c cs ih => rw [List.cons_append, byteLength_cons, byteLength_cons, ih, Nat.add_assoc]

/-- Cuts `cs` after its first `n` bytes, if a character ends there. -/
def splitAtByte : Nat → List Char → Option (List Char × List Char)
  | 0, cs => some ([], cs)
  | _ + 1, [] => none
  | n + 1, c :: cs =>
    if c.utf8Size ≤ n + 1 then
      (splitAtByte (n + 1 - c.utf8Size) cs).map fun (front, back) => (c :: front, back)
    else none

namespace Span

def point (position : Nat) : Span := ⟨position, position⟩

/-- The number of bytes in the span, if it does not run backwards. -/
def length? (s : Span) : Option Nat := if s.start ≤ s.stop then some (s.stop - s.start) else none

def isEmpty (s : Span) : Bool := s.start == s.stop

/-- The smallest span that covers both. -/
def cover (s t : Span) : Span := ⟨min s.start t.start, max s.stop t.stop⟩

/-- The part of `source` in the span, if both ends lie on character boundaries in that order. -/
def text (s : Span) (source : String) : Option String := do
  let length ← s.length?
  let (_, back) ← splitAtByte s.start source.toList
  let (front, _) ← splitAtByte length back
  return String.ofList front

/-- The span as error texts give it, `start..stop`. -/
def display (s : Span) : String := s!"{s.start}..{s.stop}"

end Span

/-- A cut after the bytes of `front` gives `front` back. -/
theorem splitAtByte_append (front back : List Char) :
    splitAtByte (byteLength front) (front ++ back) = some (front, back) := by
  induction front with
  | nil => rw [byteLength_nil, List.nil_append, splitAtByte]
  | cons c cs ih =>
    have hpos := c.utf8Size_pos
    obtain ⟨n, hn⟩ : ∃ n, byteLength (c :: cs) = n + 1 :=
      ⟨byteLength (c :: cs) - 1, by rw [byteLength_cons]; omega⟩
    rw [hn, List.cons_append, splitAtByte]
    rw [byteLength_cons] at hn
    have hle : c.utf8Size ≤ n + 1 := by omega
    have hrest : n + 1 - c.utf8Size = byteLength cs := by omega
    simp [hle, hrest, ih]

end EmbedQuery
