import EmbedQuery.Proofs.Token.Spelling
import Mathlib.Data.List.TakeWhile

/-!
# How a text falls into tokens

`Lexeme.Formed` is the grammar of single lexemes, and a lexeme is read at the head of a text when
nothing behind it goes on with it, `Lexeme.Longest`. Reading gives such a lexeme (`read_formed`),
and there is no other (`Formed.read`).

`Splits n cs ts` says the same of a whole text: `cs`, which begins at byte `n`, consists of the
lexemes of `ts`, each as long as can be, with blanks between them. Every text splits in exactly one
way, the lexer's (`tokens_eq_iff`), so a text with a comma in it can be split on both sides of the
comma (`Splits.append_comma`).
-/

namespace EmbedQuery

variable {c : Char} {cs ds name rest : List Char}

/-! ### Names in quotes -/

theorem closeQuote_closed (name : List Char) :
    closeQuote (doubleQuotes name ++ ['"']) = some (name, []) :=
  closeQuote_doubleQuotes name [] (by simp)

/-- The quote that closes a name is not followed by another one. -/
theorem head?_ne_of_closeQuote (h : closeQuote cs = some (name, rest)) :
    rest.head? ≠ some '"' := by
  fun_induction closeQuote cs generalizing name with
  | case1 => simp at h
  | case2 cs ih | case4 c cs _ hc ih =>
    obtain ⟨⟨inner, after⟩, hinner, heq⟩ := Option.map_eq_some_iff.1 h
    obtain ⟨rfl, rfl⟩ := Prod.mk.inj heq
    exact ih hinner
  | case3 cs hcs =>
    obtain ⟨rfl, rfl⟩ := Prod.mk.inj (Option.some.inj h)
    intro hhead
    obtain ⟨rest, rfl⟩ := List.head?_eq_some_iff.1 hhead
    exact hcs rest rfl

/-! ### Lexemes -/

/-- The marks of one character. -/
def marks : List (Char × TokenKind) :=
  [('(', .leftParen), (')', .rightParen), (',', .comma), ('*', .star), ('!', .bang), ('.', .dot),
    (':', .colon)]

/-- No token begins with the character, and it is no blank. -/
structure BeginsNothing (c : Char) : Prop where
  blank : Text.isBlank c = false
  identifier : isIdentifierChar c = false
  quote : c ≠ '"'
  mark : ∀ k, (c, k) ∉ marks

theorem beginsNoName_of_mem_marks {k : TokenKind} (h : (c, k) ∈ marks) :
    Text.isBlank c = false ∧ isIdentifierChar c = false ∧ c ≠ '"' := by
  have hall : ∀ m ∈ marks,
      Text.isBlank m.1 = false ∧ isIdentifierChar m.1 = false ∧ m.1 ≠ '"' := by decide
  exact hall _ h

namespace Lexeme

/-- The grammar of lexemes: a kind of token and a text that is written for it. -/
inductive Formed : Lexeme → Prop
  | mark {c : Char} {k : TokenKind} (hmark : (c, k) ∈ marks) : Formed ⟨k, [c]⟩
  | doubleColon : Formed ⟨.doubleColon, [':', ':']⟩
  | bare {name : List Char} (hname : isBare name = true) :
      Formed ⟨.identifier (String.ofList name), name⟩
  | quoted {name : List Char} (hname : name ≠ []) :
      Formed ⟨.identifier (String.ofList name), quoteName name⟩
  | emptyQuote : Formed (invalid .emptyQuote (quoteName []))
  | unclosed {cs : List Char} (hcs : closeQuote cs = none) :
      Formed (invalid .unterminatedQuote ('"' :: cs))
  | unexpected {c : Char} (hc : BeginsNothing c) : Formed (invalid (.unexpected c) [c])

/-- Nothing at the head of `rest` goes on with the piece `text` before it. -/
structure Longest (text rest : List Char) : Prop where
  bare : isBare text = true → ∀ c, rest.head? = some c → isIdentifierChar c = false
  colon : text = [':'] → rest.head? ≠ some ':'
  closed : ∀ name, text = quoteName name → rest.head? ≠ some '"'
  unclosed : ∀ cs, text = '"' :: cs → closeQuote cs = none → rest = []

namespace Longest

/-- A piece that begins like no name is as long as can be, if it is no colon before a colon. -/
theorem ofMark (hid : isIdentifierChar c = false) (hquote : c ≠ '"')
    (hcolon : c :: cs = [':'] → rest.head? ≠ some ':') : Longest (c :: cs) rest where
  bare h := by simp [isBare, hid] at h
  colon := hcolon
  closed _ h := absurd (List.cons.inj h).1 hquote
  unclosed _ h := absurd (List.cons.inj h).1 hquote

theorem ofBare (hname : isBare name = true)
    (hrest : ∀ c, rest.head? = some c → isIdentifierChar c = false) : Longest name rest := by
  have hquote (cs : List Char) : name ≠ '"' :: cs := by
    rintro rfl
    rw [isBare, List.all_cons, Bool.and_eq_true, Bool.and_eq_true] at hname
    exact absurd hname.2.1 (by decide)
  refine ⟨fun _ => hrest, fun hcolon => ?_, fun _ h => absurd h (hquote _),
    fun _ h => absurd h (hquote _)⟩
  rw [hcolon] at hname
  exact absurd hname (by decide)

theorem ofQuoted (h : rest.head? ≠ some '"') : Longest (quoteName name) rest where
  bare hbare := by
    rw [quoteName, isBare, List.cons_append, List.all_cons, Bool.and_eq_true,
      Bool.and_eq_true] at hbare
    exact absurd hbare.2.1 (by decide)
  colon heq := absurd (List.cons.inj heq).1 (by decide)
  closed _ _ := h
  unclosed cs heq hnone := by
    obtain ⟨-, rfl⟩ := List.cons.inj heq
    cases (closeQuote_closed name).symm.trans hnone

/-- No piece goes on with nothing. -/
theorem nil (text : List Char) : Longest text [] := by
  refine ⟨?_, ?_, ?_, fun _ _ _ => rfl⟩ <;> simp

end Longest

theorem quoted_formed (cs : List Char) :
    (quoted cs).1.Formed ∧ Longest (quoted cs).1.text (quoted cs).2 := by
  unfold quoted
  split
  · next h => exact ⟨.unclosed h, .nil _⟩
  · next h => exact ⟨.emptyQuote, .ofQuoted (head?_ne_of_closeQuote h)⟩
  · next hname h => exact ⟨.quoted (by simpa using hname), .ofQuoted (head?_ne_of_closeQuote h)⟩

theorem bare_formed (hc : isIdentifierChar c = true) :
    (bare (c :: cs)).1.Formed ∧ Longest (bare (c :: cs)).1.text (bare (c :: cs)).2 := by
  have hname : isBare ((c :: cs).takeWhile isIdentifierChar) = true := by
    rw [isBare, List.all_takeWhile]
    simp [hc]
  refine ⟨.bare hname, .ofBare hname fun d hd => ?_⟩
  have hstop := List.head?_dropWhile_not isIdentifierChar (c :: cs)
  rw [show ((c :: cs).dropWhile isIdentifierChar).head? = some d from hd] at hstop
  simpa using hstop

/-- A lexeme is read that the grammar has, and as much of the text as goes on with it. -/
theorem read_formed (hc : Text.isBlank c = false) (cs : List Char) :
    (read c cs).1.Formed ∧ Longest (read c cs).1.text (read c cs).2 := by
  unfold read
  split
  case h_7 cs => exact ⟨.doubleColon, .ofMark (by decide) (by decide) (by simp)⟩
  case h_8 cs hcs =>
    refine ⟨.mark (by decide), .ofMark (by decide) (by decide) fun _ hhead => ?_⟩
    obtain ⟨rest, rfl⟩ := List.head?_eq_some_iff.1 hhead
    exact hcs rest rfl
  case h_9 => exact quoted_formed _
  case h_10 =>
    split
    · next hid => exact bare_formed hid
    · next hid =>
      have hid : isIdentifierChar c = false := by simpa using hid
      refine ⟨.unexpected ⟨hc, hid, by assumption, ?_⟩, .ofMark hid (by assumption) ?_⟩
      · simp_all [marks]
      · simp_all
  all_goals exact ⟨.mark (by decide), .ofMark (by decide) (by decide) (by simp)⟩

theorem read_unexpected (hc : BeginsNothing c) (cs : List Char) :
    read c cs = (invalid (.unexpected c) [c], cs) := by
  obtain ⟨-, hid, hquote, hmarks⟩ := hc
  simp only [marks, List.mem_cons, Prod.mk.injEq, List.not_mem_nil] at hmarks
  unfold read
  split
  case h_9 => exact absurd rfl hquote
  case h_10 => exact if_neg (by simp [hid])
  all_goals simp at hmarks

/-- A mark is read, unless it is a colon before a colon. -/
theorem read_mark {k : TokenKind} (hmark : (c, k) ∈ marks)
    (hcolon : c = ':' → cs.head? ≠ some ':') : read c cs = (⟨k, [c]⟩, cs) := by
  simp only [marks, List.mem_cons, Prod.mk.injEq, List.not_mem_nil, or_false] at hmark
  rcases hmark with h | h | h | h | h | h | ⟨rfl, rfl⟩
  case inr.inr.inr.inr.inr.inr =>
    refine read.eq_8 _ fun ds heq => hcolon rfl ?_
    rw [heq]
    rfl
  all_goals
    obtain ⟨rfl, rfl⟩ := h
    rfl

variable {x : Lexeme}

/-- A lexeme of the grammar is read before a text that does not go on with it. -/
theorem Formed.read (hx : x.Formed) (hrest : Longest x.text rest) :
    ∃ c cs, x.text = c :: cs ∧ Text.isBlank c = false ∧
      Lexeme.read c (cs ++ rest) = (x, rest) := by
  cases hx with
  | @mark c k hmark =>
    obtain ⟨hblank, -, -⟩ := beginsNoName_of_mem_marks hmark
    exact ⟨c, [], rfl, hblank, read_mark hmark fun hc => hrest.colon (by rw [hc])⟩
  | doubleColon => exact ⟨':', [':'], rfl, by decide, rfl⟩
  | @bare name hname =>
    cases name with
    | nil => cases hname
    | cons c cs =>
      have hc : isIdentifierChar c = true := by
        rw [isBare, List.all_cons, Bool.and_eq_true, Bool.and_eq_true] at hname
        exact hname.2.1
      exact ⟨c, cs, rfl, isBlank_of_isIdentifierChar hc, read_bare hname (hrest.bare hname)⟩
  | @quoted name hname =>
    refine ⟨'"', doubleQuotes name ++ ['"'], rfl, by decide, ?_⟩
    rw [List.append_assoc]
    exact quoted_name hname (hrest.closed name rfl)
  | emptyQuote =>
    refine ⟨'"', ['"'], rfl, by decide, ?_⟩
    have hclose : closeQuote ('"' :: rest) = some ([], rest) :=
      closeQuote_doubleQuotes [] rest (hrest.closed [] rfl)
    show Lexeme.quoted ('"' :: rest) = _
    rw [Lexeme.quoted, hclose]
  | @unclosed cs hcs =>
    obtain rfl := hrest.unclosed cs rfl hcs
    refine ⟨'"', cs, rfl, by decide, ?_⟩
    show Lexeme.quoted (cs ++ []) = _
    rw [List.append_nil, Lexeme.quoted, hcs]
  | @unexpected c hc => exact ⟨c, [], rfl, hc.blank, read_unexpected hc rest⟩

/-- An open quote is a complaint. -/
theorem Formed.kind_of_unclosed (hx : x.Formed) (htext : x.text = '"' :: cs)
    (hcs : closeQuote cs = none) : x.kind = .error LexError.unterminatedQuote.message := by
  obtain ⟨c, cs', htext', -, hread⟩ := hx.read (.nil _)
  rw [htext] at htext'
  obtain ⟨rfl, rfl⟩ := List.cons.inj htext'
  have hquoted : Lexeme.read '"' (cs ++ []) = (invalid .unterminatedQuote ('"' :: cs), []) := by
    show Lexeme.quoted (cs ++ []) = _
    rw [List.append_nil, Lexeme.quoted, hcs]
  rw [hread] at hquoted
  rw [(Prod.mk.inj hquoted).1]
  rfl

/-- A lexeme that is no complaint is as long as can be also when a comma follows. -/
theorem Longest.append_comma (h : Longest x.text rest) (hx : x.Formed)
    (hkind : ∀ message, x.kind ≠ .error message) (ds : List Char) :
    Longest x.text (rest ++ ',' :: ds) := by
  cases rest with
  | nil =>
    refine ⟨?_, by simp, by simp, fun cs htext hcs => ?_⟩
    · rintro - d ⟨⟩
      decide
    · exact absurd (hx.kind_of_unclosed htext hcs) (hkind _)
  | cons d rest =>
    have hopen (cs : List Char) (htext : x.text = '"' :: cs) (hcs : closeQuote cs = none) :
        False := by simpa using h.unclosed cs htext hcs
    exact ⟨h.bare, h.colon, h.closed, fun cs htext hcs => (hopen cs htext hcs).elim⟩

end Lexeme

/-! ### Texts -/

/-- The text `cs`, which begins at byte `n`, consists of the tokens, with blanks between them and
around them. -/
inductive Splits : Nat → List Char → List Token → Prop
  | blanks {n : Nat} {gap : List Char} (hgap : ∀ c ∈ gap, Text.isBlank c = true) : Splits n gap []
  | token {n : Nat} {gap rest : List Char} {x : Lexeme} {tokens : List Token}
      (hgap : ∀ c ∈ gap, Text.isBlank c = true) (hx : x.Formed)
      (hlongest : Lexeme.Longest x.text rest)
      (hrest : Splits (n + byteLength gap + byteLength x.text) rest tokens) :
      Splits n (gap ++ (x.text ++ rest))
        (⟨x.kind, ⟨n + byteLength gap, n + byteLength gap + byteLength x.text⟩⟩ :: tokens)

namespace Lexer

/-- The next token stands behind the blanks, and the lexer goes on behind the token. -/
theorem next?_eq {l : Lexer} (h : l.rest.dropWhile Text.isBlank = c :: cs) :
    l.next? =
      let start := l.position + byteLength (l.rest.takeWhile Text.isBlank)
      let stop := start + byteLength (Lexeme.read c cs).1.text
      some (⟨(Lexeme.read c cs).1.kind, ⟨start, stop⟩⟩, ⟨stop, (Lexeme.read c cs).2⟩) := by
  rw [next?, skipBlanks, h]

/-- The lexer splits its text. -/
theorem splits_tokens (l : Lexer) : Splits l.position l.rest l.tokens := by
  have hgap : ∀ c ∈ l.rest.takeWhile Text.isBlank, Text.isBlank c = true :=
    fun c hc => List.mem_takeWhile_imp hc
  have htext : l.rest.takeWhile Text.isBlank ++ l.rest.dropWhile Text.isBlank = l.rest :=
    List.takeWhile_append_dropWhile
  cases h : l.rest.dropWhile Text.isBlank with
  | nil =>
    rw [h, List.append_nil] at htext
    rw [tokens_of_none (next?_of_nil h), ← htext]
    exact .blanks hgap
  | cons c cs =>
    have hc : Text.isBlank c = false := by
      have hstop := List.head?_dropWhile_not Text.isBlank l.rest
      rw [h] at hstop
      simpa using hstop
    obtain ⟨hformed, hlongest⟩ := Lexeme.read_formed hc cs
    have hnext := next?_eq h
    have hlt := length_rest_lt_of_next? hnext
    have hsplits := Splits.token hgap hformed hlongest (splits_tokens
      ⟨l.position + byteLength (l.rest.takeWhile Text.isBlank) +
        byteLength (Lexeme.read c cs).1.text, (Lexeme.read c cs).2⟩)
    rw [Lexeme.read_append, ← h, htext] at hsplits
    rw [tokens_of_some hnext]
    exact hsplits
termination_by l.rest.length

end Lexer

namespace Splits

variable {n : Nat} {ts us : List Token}

/-- There is no other way to split a text than the lexer's. -/
theorem tokens_eq (h : Splits n cs ts) : Lexer.tokens ⟨n, cs⟩ = ts := by
  induction h with
  | blanks hgap =>
    refine Lexer.tokens_of_none (Lexer.next?_of_nil ?_)
    exact List.dropWhile_eq_nil_iff.2 hgap
  | @token n gap rest x ts hgap hx hlongest _ ih =>
    obtain ⟨c, cs, htext, hc, hread⟩ := hx.read hlongest
    have hdrop : (gap ++ (x.text ++ rest)).dropWhile Text.isBlank = c :: (cs ++ rest) := by
      rw [List.dropWhile_append_of_pos hgap, htext]
      exact dropWhile_isBlank_cons hc
    have htake : (gap ++ (x.text ++ rest)).takeWhile Text.isBlank = gap := by
      rw [List.takeWhile_append_of_pos hgap, htext, List.cons_append,
        List.takeWhile_cons_of_neg (by simp [hc]), List.append_nil]
    have hnext := Lexer.next?_eq (l := ⟨n, gap ++ (x.text ++ rest)⟩) hdrop
    rw [hread, htake] at hnext
    rw [Lexer.tokens_of_some hnext, ih]

/-- A text splits into the tokens of the lexer and no others. -/
theorem tokens_eq_iff : Lexer.tokens ⟨n, cs⟩ = ts ↔ Splits n cs ts := by
  refine ⟨?_, tokens_eq⟩
  rintro rfl
  exact Lexer.splits_tokens ⟨n, cs⟩

/-- Two texts with a comma between them split as they do apart, if no token of the first is a
complaint: an open quote would go on behind the comma. -/
theorem append_comma (h : Splits n cs ts) (hkinds : ∀ t ∈ ts, ∀ message, t.kind ≠ .error message)
    (h' : Splits (n + byteLength cs + 1) ds us) :
    Splits n (cs ++ ',' :: ds)
      (ts ++ ⟨.comma, ⟨n + byteLength cs, n + byteLength cs + 1⟩⟩ :: us) := by
  induction h with
  | @blanks n gap hgap =>
    have hcomma : Lexeme.Formed ⟨.comma, [',']⟩ := .mark (by decide)
    exact .token hgap hcomma (.ofMark (by decide) (by decide) (by simp)) h'
  | @token n gap rest x ts hgap hx hlongest _ ih =>
    obtain ⟨hkind, hkinds⟩ := List.forall_mem_cons.1 hkinds
    simp only [byteLength_append, ← Nat.add_assoc] at h' ⊢
    rw [List.append_assoc, List.append_assoc, List.cons_append]
    exact .token hgap hx (hlongest.append_comma hx hkind ds) (ih hkinds h')

end Splits

end EmbedQuery
