import EmbedQuery.Json.Reader

/-!
# Strings written and read

A text that is written as a literal is the text that is read from it (`Literal.decode_escape`). A
character is written in one of three ways (`Literal.escapeChar_cases`), each of which is read as one
piece that stands for this character alone (`Literal.exists_piece`): a unit that is written is no
surrogate, so it never takes the next piece for its partner. The quote that closes a literal is the
first that is not part of an escape (`readLiteral_escape_append`).
-/

namespace EmbedQuery.Json

namespace Literal

variable {c letter : Char} {cs : List Char}

/-! ### What is written for a character -/

/-- A character is written as an escape of one letter, as an escape of its unit, or as itself. -/
theorem escapeChar_cases (c : Char) :
    (∃ letter, escapeChar c = ['\\', letter] ∧ escaped? letter = some c) ∨
      (escapeChar c = '\\' :: 'u' :: hexDigits c.toNat ∧ c.toNat < 0x20) ∨
      (escapeChar c = [c] ∧ ¬ (c = '\\' ∨ c = '"' ∨ c.toNat < 0x20)) := by
  unfold escapeChar
  split
  · exact .inl ⟨'"', rfl, by subst_vars; rfl⟩
  split
  · exact .inl ⟨'\\', rfl, by subst_vars; rfl⟩
  split
  · exact .inl ⟨'b', rfl, by subst_vars; rfl⟩
  split
  · exact .inl ⟨'f', rfl, by subst_vars; rfl⟩
  split
  · exact .inl ⟨'n', rfl, by subst_vars; rfl⟩
  split
  · exact .inl ⟨'r', rfl, by subst_vars; rfl⟩
  split
  · exact .inl ⟨'t', rfl, by subst_vars; rfl⟩
  split
  · exact .inr (.inl ⟨rfl, ‹_›⟩)
  · exact .inr (.inr ⟨rfl, by simp [*]⟩)

/-! ### The three ways as pieces -/

theorem pieces?_letter_cons (h : escaped? letter = some c) :
    pieces? ('\\' :: letter :: cs) = (pieces? cs).map (.char c :: ·) := by
  have hunit : letter ≠ 'u' := by
    rintro rfl
    cases h
  rw [pieces?, h]
  · cases pieces? cs <;> rfl
  · exact fun _ _ _ _ _ heq _ => hunit heq

theorem hexValue?_digitChar {d : Nat} (h : d < 16) : hexValue? (Nat.digitChar d) = some d := by
  revert d
  decide

/-- Four digits name the unit that they are written for. -/
theorem pieces?_hexDigits_append {n : Nat} (h : n < 0x10000) :
    pieces? ('\\' :: 'u' :: hexDigits n ++ cs) = (pieces? cs).map (.unit n :: ·) := by
  have hdigit (m : Nat) : hexValue? (Nat.digitChar (m % 16)) = some (m % 16) :=
    hexValue?_digitChar (Nat.mod_lt m (by decide))
  have hunit : ((n / 0x1000 % 16) * 16 + n / 0x100 % 16) * 256 +
      ((n / 0x10 % 16) * 16 + n % 16) = n := by omega
  show pieces? ('\\' :: 'u' :: Nat.digitChar _ :: Nat.digitChar _ :: Nat.digitChar _ ::
    Nat.digitChar _ :: cs) = _
  rw [pieces?]
  simp only [unit?, hdigit, Option.pure_def, Option.bind_eq_bind, Option.bind_some, hunit]
  cases pieces? cs <;> rfl

theorem pieces?_cons (h : ¬ (c = '\\' ∨ c = '"' ∨ c.toNat < 0x20)) :
    pieces? (c :: cs) = (pieces? cs).map (.char c :: ·) := by
  rw [pieces?, if_neg h]
  · cases pieces? cs <;> rfl
  · exact fun _ _ _ _ _ heq => absurd (Or.inl heq) h
  · exact fun _ _ heq => absurd (Or.inl heq) h

/-- A unit that is no surrogate stands for a character, whatever comes next. -/
theorem join?_unit_cons {n : Nat} {pieces : List Piece} (h : n < 0xD800) :
    join? (.unit n :: pieces) = (join? pieces).map (Char.ofNat n :: ·) := by
  have hhigh : isHigh n = false := by
    rw [isHigh, Bool.and_eq_false_iff, decide_eq_false_iff_not]
    omega
  have hlow : isLow n = false := by
    rw [isLow, Bool.and_eq_false_iff, decide_eq_false_iff_not]
    omega
  rw [Option.map_eq_bind]
  obtain - | ⟨c | low, pieces⟩ := pieces <;>
  · simp only [join?, hhigh, hlow]
    rfl

/-- What is written for a character is read as one piece, and that as the character. -/
theorem exists_piece (c : Char) :
    ∃ piece, (∀ cs, pieces? (escapeChar c ++ cs) = (pieces? cs).map (piece :: ·)) ∧
      ∀ pieces, join? (piece :: pieces) = (join? pieces).map (c :: ·) := by
  have hchar (pieces : List Piece) :
      join? (.char c :: pieces) = (join? pieces).map (c :: ·) := by
    rw [join?]
    cases join? pieces <;> rfl
  obtain ⟨letter, hwritten, hletter⟩ | ⟨hwritten, hunit⟩ | ⟨hwritten, hbare⟩ := escapeChar_cases c
  · exact ⟨.char c, fun cs => hwritten ▸ pieces?_letter_cons hletter, hchar⟩
  · refine ⟨.unit c.toNat, fun cs => hwritten ▸ pieces?_hexDigits_append (by omega), ?_⟩
    intro pieces
    rw [join?_unit_cons (by omega), Char.ofNat_toNat]
  · exact ⟨.char c, fun cs => hwritten ▸ pieces?_cons hbare, hchar⟩

/-! ### Texts -/

/-- The pieces that a text is written as are read as the text. -/
theorem exists_pieces (text : List Char) :
    ∃ pieces, pieces? (escape text) = some pieces ∧ join? pieces = some text := by
  induction text with
  | nil => exact ⟨[], rfl, rfl⟩
  | cons c text ih =>
    obtain ⟨pieces, hpieces, hjoin⟩ := ih
    obtain ⟨piece, hwritten, hread⟩ := exists_piece c
    refine ⟨piece :: pieces, ?_, by rw [hread, hjoin]; rfl⟩
    rw [escape, List.flatMap_cons, hwritten]
    exact congrArg (Option.map _) hpieces

/-- The text of a literal is the text it was written for. -/
theorem decode_escape (text : List Char) : decode (escape text) = some text := by
  obtain ⟨pieces, hpieces, hjoin⟩ := exists_pieces text
  rw [decode, hpieces]
  exact hjoin

theorem escape_injective : Function.Injective escape := fun text text' h =>
  Option.some.inj (by rw [← decode_escape text, h, decode_escape])

end Literal

open Literal

/-! ### The closing quote -/

variable {c : Char} {cs literal rest : List Char}

theorem readLiteral_cons (hquote : c ≠ '"') (hescape : c ≠ '\\') :
    readLiteral (c :: cs) = (readLiteral cs).map fun (literal, rest) => (c :: literal, rest) := by
  rw [readLiteral]
  · exact hquote
  · exact fun _ _ heq => absurd heq hescape

/-- The digits of a unit are neither quotes nor the start of an escape. -/
theorem readLiteral_digitChar_cons {n : Nat} (h : n < 16) :
    readLiteral (Nat.digitChar n :: cs) =
      (readLiteral cs).map fun (literal, rest) => (Nat.digitChar n :: literal, rest) := by
  have hdigits : ∀ d < 16, Nat.digitChar d ≠ '"' ∧ Nat.digitChar d ≠ '\\' := by decide
  exact readLiteral_cons (hdigits n h).1 (hdigits n h).2

theorem readLiteral_escapeChar_append (h : readLiteral cs = some (literal, rest)) :
    readLiteral (escapeChar c ++ cs) = some (escapeChar c ++ literal, rest) := by
  obtain ⟨letter, hwritten, -⟩ | ⟨hwritten, -⟩ | ⟨hwritten, hbare⟩ := escapeChar_cases c
  · rw [hwritten]
    show (readLiteral cs).map _ = _
    rw [h]
    rfl
  · have hdigit (m : Nat) : m % 16 < 16 := Nat.mod_lt m (by decide)
    rw [hwritten]
    show (readLiteral (Nat.digitChar _ :: Nat.digitChar _ :: Nat.digitChar _ ::
      Nat.digitChar _ :: cs)).map _ = _
    simp only [readLiteral_digitChar_cons (hdigit _), h]
    rfl
  · rw [not_or, not_or] at hbare
    rw [hwritten]
    show readLiteral (c :: cs) = _
    rw [readLiteral_cons hbare.2.1 hbare.1, h]
    rfl

/-- A literal ends at the quote behind it. -/
theorem readLiteral_escape_append (text rest : List Char) :
    readLiteral (escape text ++ '"' :: rest) = some (escape text, rest) := by
  induction text with
  | nil => rfl
  | cons c text ih =>
    rw [escape, List.flatMap_cons, List.append_assoc]
    exact readLiteral_escapeChar_append ih

/-- A text that was written as a string is read as it was written. -/
theorem readString_escape_append (text rest : List Char) :
    readString (escape text ++ '"' :: rest) = some (escape text, rest) := by
  obtain ⟨pieces, hpieces, -⟩ := exists_pieces text
  rw [readString, readLiteral_escape_append]
  show (pieces? (escape text)).bind _ = _
  rw [hpieces]
  rfl

end EmbedQuery.Json
