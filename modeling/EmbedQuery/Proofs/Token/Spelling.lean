import EmbedQuery.Proofs.Token.Kinds
import EmbedQuery.Query.Canonical
import Mathlib.Data.List.Chain

/-!
# Reading the spelling of tokens

The text of a token is read as that token when what follows it does not go on with it: no name
follows a name, and no colon follows a colon (`TokenKind.Apart`). `kindsOf_spellings` says so for a
whole list of tokens.
-/

namespace EmbedQuery

/-! ### Blanks and identifier characters -/

namespace Text

instance (start : Nat) : (ranges : Ranges) → Decidable (Increasing start ranges)
  | [] => .isTrue trivial
  | (low, high) :: rest =>
    have : Decidable (Increasing (high + 1) rest) := instDecidableIncreasing (high + 1) rest
    inferInstanceAs (Decidable (start ≤ low ∧ low ≤ high ∧ Increasing (high + 1) rest))

theorem increasing_blankRanges : Increasing 0 blankRanges := by
  decide

theorem increasing_alphanumericRanges : Increasing 0 alphanumericRanges := by
  decide +kernel

/-- No blank is a letter or a number. -/
theorem isAlphanumeric_of_isBlank {c : Char} (h : isBlank c = true) :
    isAlphanumeric c = false := by
  -- The two tables are compared range by range.
  have hdisjoint : ∀ r ∈ blankRanges, ∀ s ∈ alphanumericRanges, r.2 < s.1 ∨ s.2 < r.1 := by
    decide +kernel
  obtain ⟨r, hr, hlow, hhigh⟩ := (covers_iff increasing_blankRanges).1 h
  refine Bool.eq_false_iff.2 fun halpha => ?_
  obtain ⟨s, hs, hlow', hhigh'⟩ := (covers_iff increasing_alphanumericRanges).1 halpha
  have := hdisjoint r hr s hs
  omega

end Text

variable {c : Char} {cs name rest : List Char} {k k' : TokenKind}

theorem isBlank_of_isIdentifierChar (hc : isIdentifierChar c = true) : Text.isBlank c = false := by
  refine Bool.eq_false_iff.2 fun hblank => ?_
  rw [isIdentifierChar, Text.isAlphanumeric_of_isBlank hblank, Bool.false_or, Bool.or_eq_true,
    beq_iff_eq, beq_iff_eq] at hc
  obtain rfl | rfl := hc <;> cases hblank

theorem dropWhile_isBlank_cons (h : Text.isBlank c = false) :
    (c :: cs).dropWhile Text.isBlank = c :: cs := by
  rw [List.dropWhile_cons, h, if_neg Bool.false_ne_true]

/-! ### Names -/

theorem Lexeme.read_of_isIdentifierChar (hc : isIdentifierChar c = true) :
    read c cs = bare (c :: cs) := by
  unfold read
  split
  all_goals first
    | exact absurd hc (by decide)
    | exact if_pos hc

theorem Lexeme.read_bare (hname : isBare (c :: cs) = true)
    (hrest : ∀ d, rest.head? = some d → isIdentifierChar d = false) :
    read c (cs ++ rest) = (⟨.identifier (String.ofList (c :: cs)), c :: cs⟩, rest) := by
  obtain ⟨-, hall⟩ := Bool.and_eq_true_iff.1 hname
  rw [List.all_eq_true] at hall
  -- What follows the name stops the run of identifier characters.
  have hstop : rest.takeWhile isIdentifierChar = [] ∧ rest.dropWhile isIdentifierChar = rest := by
    cases rest with
    | nil => exact ⟨rfl, rfl⟩
    | cons d rest => simp [hrest d rfl]
  rw [read_of_isIdentifierChar (hall c List.mem_cons_self), bare, ← List.cons_append,
    List.takeWhile_append_of_pos hall, List.dropWhile_append_of_pos hall, hstop.1, hstop.2,
    List.append_nil]

/-- A bare name is read whole when no identifier character follows it. -/
theorem kindsOf_bare (hname : isBare name = true)
    (hrest : ∀ d, rest.head? = some d → isIdentifierChar d = false) :
    kindsOf (name ++ rest) = .identifier (String.ofList name) :: kindsOf rest := by
  cases name with
  | nil => cases hname
  | cons c cs =>
    have hc : isIdentifierChar c = true := List.all_eq_true.1 (Bool.and_eq_true_iff.1 hname).2 c
      List.mem_cons_self
    rw [List.cons_append, kindsOf_cons (dropWhile_isBlank_cons (isBlank_of_isIdentifierChar hc)),
      Lexeme.read_bare hname hrest]

theorem Lexeme.quoted_name (hname : name ≠ []) (hrest : rest.head? ≠ some '"') :
    quoted (doubleQuotes name ++ '"' :: rest) =
      (⟨.identifier (String.ofList name), quoteName name⟩, rest) := by
  rw [quoted, closeQuote_doubleQuotes name rest hrest]
  -- Quotes around nothing would be a complaint.
  cases name with
  | nil => exact absurd rfl hname
  | cons c cs => rfl

/-- A quoted name is read whole when no quote follows it. -/
theorem kindsOf_quoteName (hname : name ≠ []) (hrest : rest.head? ≠ some '"') :
    kindsOf (quoteName name ++ rest) = .identifier (String.ofList name) :: kindsOf rest := by
  have hread : Lexeme.read '"' (doubleQuotes name ++ '"' :: rest) =
      Lexeme.quoted (doubleQuotes name ++ '"' :: rest) := rfl
  rw [quoteName, List.cons_append, List.cons_append, List.append_assoc, List.singleton_append,
    kindsOf_cons (dropWhile_isBlank_cons (by decide)), hread, Lexeme.quoted_name hname hrest]

/-! ### Tokens -/

namespace TokenKind

/-- Whether the token has a spelling: a text can have it, and it is no complaint. -/
def IsSpelled (k : TokenKind) : Prop := k.IsRead ∧ ∀ message, k ≠ .error message

/-- What may follow the spelling of a token without being taken for a part of it. -/
def Ends (k : TokenKind) (rest : List Char) : Prop :=
  match k with
  | .identifier _ => ∀ c, rest.head? = some c → isIdentifierChar c = false ∧ c ≠ '"'
  | .colon => rest.head? ≠ some ':'
  | _ => True

/-- The spellings of two tokens stay apart when they are written side by side. -/
def Apart (k k' : TokenKind) : Prop :=
  (k.asIdentifier.isSome = true → k'.asIdentifier = none) ∧
    (k = .colon → k' ≠ .colon ∧ k' ≠ .doubleColon)

end TokenKind

theorem spellName_toList (name : String) :
    (spellName name).toList =
      if isBare name.toList then name.toList else quoteName name.toList := by
  rw [spellName]
  split
  · rfl
  · exact String.toList_ofList

/-- A token is read from its spelling when what follows does not go on with it. -/
theorem kindsOf_spelling_append (hk : k.IsSpelled) (hrest : k.Ends rest) :
    kindsOf (k.spelling.toList ++ rest) = k :: kindsOf rest := by
  cases k with
  | identifier name =>
    rw [TokenKind.spelling, spellName_toList]
    split
    · next hbare =>
      rw [kindsOf_bare hbare fun d hd => (hrest d hd).1, String.ofList_toList]
    · have hname : name.toList ≠ [] := fun hnil => hk.1 (String.toList_eq_nil_iff.1 hnil)
      rw [kindsOf_quoteName hname fun hquote => (hrest _ hquote).2 rfl, String.ofList_toList]
  | colon =>
    have hread : Lexeme.read ':' rest = (⟨.colon, [':']⟩, rest) := by
      cases rest with
      | nil => rfl
      -- Only a second colon would have been taken together with the first.
      | cons d rest => exact Lexeme.read.eq_8 _ fun _ heq => hrest (by rw [heq]; rfl)
    have hcons : kindsOf (':' :: rest) = _ := kindsOf_cons (dropWhile_isBlank_cons (by decide))
    rwa [hread] at hcons
  | eof => exact hk.1.elim
  | error message => exact absurd rfl (hk.2 message)
  | star | comma | leftParen | rightParen | doubleColon | bang | dot =>
    exact kindsOf_cons (dropWhile_isBlank_cons (by decide))

theorem head?_spellName_ne (name : String) (rest : List Char) (hname : name ≠ "") :
    ((spellName name).toList ++ rest).head? ≠ some ':' := by
  rw [spellName_toList]
  split
  · next hbare =>
    cases hchars : name.toList with
    | nil => exact absurd (String.toList_eq_nil_iff.1 hchars) hname
    | cons c cs =>
      rw [hchars, isBare, List.all_cons, Bool.and_eq_true, Bool.and_eq_true] at hbare
      rintro ⟨⟩
      exact absurd hbare.2.1 (by decide)
  · exact nofun

theorem TokenKind.ends_nil (k : TokenKind) : k.Ends [] := by
  cases k with
  | identifier name => exact fun _ h => nomatch h
  | colon => exact nofun
  | _ => trivial

/-- A token whose spelling stays apart from the next one is ended by it. -/
theorem TokenKind.Apart.ends (h : k.Apart k') (hk' : k'.IsSpelled) (rest : List Char) :
    k.Ends (k'.spelling.toList ++ rest) := by
  obtain ⟨hname, hcolon⟩ := h
  cases k with
  | identifier name =>
    cases k' with
    | identifier name' => cases hname rfl
    | eof => exact hk'.1.elim
    | error message => exact absurd rfl (hk'.2 message)
    | star | comma | leftParen | rightParen | colon | doubleColon | bang | dot =>
      rintro c ⟨⟩
      decide
  | colon =>
    obtain ⟨hone, htwo⟩ := hcolon rfl
    cases k' with
    | identifier name => exact head?_spellName_ne name rest hk'.1
    | eof => exact hk'.1.elim
    | error message => exact absurd rfl (hk'.2 message)
    | colon => exact absurd rfl hone
    | doubleColon => exact absurd rfl htwo
    | star | comma | leftParen | rightParen | bang | dot => exact nofun
  | _ => trivial

/-- Tokens are read from their spellings when these stay apart. -/
theorem kindsOf_spellings {ks : List TokenKind} (hspelled : ∀ k ∈ ks, k.IsSpelled)
    (hapart : ks.IsChain TokenKind.Apart) :
    kindsOf (ks.flatMap fun k => k.spelling.toList) = ks := by
  induction ks with
  | nil => exact kindsOf_nil rfl
  | cons k ks ih =>
    obtain ⟨hk, hks⟩ := List.forall_mem_cons.1 hspelled
    have hends : k.Ends (ks.flatMap fun k => k.spelling.toList) := by
      cases ks with
      | nil => exact k.ends_nil
      | cons k' ks =>
        obtain ⟨hkk', -⟩ := List.isChain_cons_cons.1 hapart
        exact hkk'.ends (List.forall_mem_cons.1 hks).1 _
    rw [List.flatMap_cons, kindsOf_spelling_append hk hends, ih hks hapart.of_cons]

end EmbedQuery
