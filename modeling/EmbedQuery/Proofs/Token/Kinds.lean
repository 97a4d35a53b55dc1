import EmbedQuery.Token.Lexer

/-!
# The kinds of the tokens of a text

What the tokens of a text are does not depend on where the text stands, so it is a function of the
characters alone, `kindsOf`. It takes one lexeme after the other off the text (`kindsOf_cons`), and
what holds of every lexeme holds of every token (`forall_kindsOf`).
-/

namespace EmbedQuery

namespace Lexer

variable {l l' : Lexer} {t : Token} {c : Char} {cs ds : List Char}

theorem tokens_of_none (h : l.next? = none) : l.tokens = [] := by
  rw [tokens]
  split
  · rfl
  · next h' => cases h.symm.trans h'

theorem tokens_of_some (h : l.next? = some (t, l')) : l.tokens = t :: l'.tokens := by
  rw [tokens]
  split
  · next h' => cases h.symm.trans h'
  · next h' =>
    cases h.symm.trans h'
    rfl

theorem next?_of_nil (h : l.rest.dropWhile Text.isBlank = []) : l.next? = none := by
  rw [next?, skipBlanks, h]

theorem next?_of_cons (h : l.rest.dropWhile Text.isBlank = c :: ds) :
    ∃ (span : Span) (position : Nat), l.next? =
      some (⟨(Lexeme.read c ds).1.kind, span⟩, ⟨position, (Lexeme.read c ds).2⟩) := by
  rw [next?, skipBlanks, h]
  exact ⟨_, _, rfl⟩

/-- The kinds of the tokens of a text do not depend on its position. -/
theorem map_kind_tokens_congr {l l' : Lexer} (h : l.rest = l'.rest) :
    l.tokens.map Token.kind = l'.tokens.map Token.kind := by
  cases hskip : l.rest.dropWhile Text.isBlank with
  | nil =>
    rw [tokens_of_none (next?_of_nil hskip), tokens_of_none (next?_of_nil (h ▸ hskip))]
  | cons c ds =>
    obtain ⟨span, position, hnext⟩ := next?_of_cons hskip
    obtain ⟨span', position', hnext'⟩ := next?_of_cons (l := l') (h ▸ hskip)
    have hlt := length_rest_lt_of_next? hnext
    -- Both go on with the same text, at positions that may differ.
    have hrest : (⟨position, (Lexeme.read c ds).2⟩ : Lexer).tokens.map Token.kind =
        (⟨position', (Lexeme.read c ds).2⟩ : Lexer).tokens.map Token.kind :=
      map_kind_tokens_congr rfl
    rw [tokens_of_some hnext, tokens_of_some hnext', List.map_cons, List.map_cons, hrest]
termination_by l.rest.length

end Lexer

/-- The kinds of the tokens of a text, without the end of the input. -/
def kindsOf (cs : List Char) : List TokenKind := (Lexer.tokens ⟨0, cs⟩).map Token.kind

theorem map_kind_tokens (l : Lexer) : l.tokens.map Token.kind = kindsOf l.rest :=
  Lexer.map_kind_tokens_congr rfl

/-- The kinds of the tokens of a query end with the end of the input. -/
theorem map_kind_tokenize (query : String) :
    (tokenize query).map Token.kind = kindsOf query.toList ++ [.eof] := by
  rw [tokenize, Lexer.tokenize, List.map_append, map_kind_tokens]
  rfl

theorem kindsOf_nil {cs : List Char} (h : cs.dropWhile Text.isBlank = []) : kindsOf cs = [] := by
  rw [kindsOf, Lexer.tokens_of_none (Lexer.next?_of_nil h), List.map_nil]

/-- A text that is not blank has the kind of its first lexeme and those of what follows it. -/
theorem kindsOf_cons {c : Char} {cs ds : List Char} (h : cs.dropWhile Text.isBlank = c :: ds) :
    kindsOf cs = (Lexeme.read c ds).1.kind :: kindsOf (Lexeme.read c ds).2 := by
  obtain ⟨span, position, hnext⟩ := Lexer.next?_of_cons (l := ⟨0, cs⟩) h
  rw [kindsOf, Lexer.tokens_of_some hnext, List.map_cons, map_kind_tokens]

/-- A lexeme takes something off the text. -/
theorem length_read_lt_of_dropWhile {c : Char} {cs ds : List Char}
    (h : cs.dropWhile Text.isBlank = c :: ds) : (Lexeme.read c ds).2.length < cs.length := by
  have hle := (List.dropWhile_sublist Text.isBlank (l := cs)).length_le
  rw [h, List.length_cons] at hle
  exact Nat.lt_of_lt_of_le (Lexeme.length_read_lt c ds) hle

/-- What holds of the kind of every lexeme holds of the kind of every token. -/
theorem forall_kindsOf {P : TokenKind → Prop} (hread : ∀ c ds, P (Lexeme.read c ds).1.kind)
    (cs : List Char) : ∀ k ∈ kindsOf cs, P k := by
  cases h : cs.dropWhile Text.isBlank with
  | nil =>
    rw [kindsOf_nil h]
    exact nofun
  | cons c ds =>
    have hlt := length_read_lt_of_dropWhile h
    rw [kindsOf_cons h]
    have hrest := forall_kindsOf hread (Lexeme.read c ds).2
    exact List.forall_mem_cons.2 ⟨hread c ds, hrest⟩
termination_by cs.length

/-- Whether a text can have a token of this kind: it is not the end of the input, and a name has a
character. -/
def TokenKind.IsRead : TokenKind → Prop
  | .eof => False
  | .identifier name => name ≠ ""
  | _ => True

theorem Lexeme.isRead_read (c : Char) (cs : List Char) : (read c cs).1.kind.IsRead := by
  unfold read
  split
  all_goals try exact trivial
  · unfold quoted
    split
    · exact trivial
    · exact trivial
    · next name _ hname _ =>
      intro hempty
      apply hname
      simpa using congrArg String.toList hempty
  · split
    · next hc =>
      intro hempty
      -- The run begins with the character that was looked at.
      have hnil : List.takeWhile isIdentifierChar (c :: cs) = [] := by
        simpa using congrArg String.toList hempty
      simp [hc] at hnil
    · exact trivial

/-- The tokens of a text are none that no text can have. -/
theorem isRead_of_mem_kindsOf {cs : List Char} : ∀ k ∈ kindsOf cs, k.IsRead :=
  forall_kindsOf Lexeme.isRead_read cs

end EmbedQuery
