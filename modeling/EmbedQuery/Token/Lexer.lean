import EmbedQuery.Identifier
import EmbedQuery.Text.Blank
import EmbedQuery.Token

/-!
# Splitting a query into tokens

A lexer stands at a position of the query. It skips blanks and then reads the longest lexeme that
starts there: a run of identifier characters, a quoted name, a mark, or one character that begins
nothing. Every lexeme is a non-empty piece of the text (`Lexeme.read_append`), so the lexer comes to
the end; there it stays and answers with the end of the input each time.
-/

namespace EmbedQuery

/-- Why a piece of text is no token. -/
inductive LexError
  /-- A quoted name has no closing quote. -/
  | unterminatedQuote
  /-- A quoted name has nothing between its quotes. -/
  | emptyQuote
  /-- The character begins no token. -/
  | unexpected (c : Char)
deriving DecidableEq, Repr

def LexError.message : LexError → String
  | unterminatedQuote => "Unterminated quoted identifier"
  | emptyQuote => "Empty quoted identifier"
  | unexpected c => s!"Unexpected character: {c}"

/-! ### Lexemes -/

/-- A token kind with the piece of text it was read from. -/
structure Lexeme where
  kind : TokenKind
  text : List Char
deriving DecidableEq, Repr

namespace Lexeme

/-- A piece that is no token. -/
def invalid (error : LexError) (text : List Char) : Lexeme := ⟨.error error.message, text⟩

/-- A quoted name, after its opening quote. Without a closing quote it takes the rest of
the text. -/
def quoted (cs : List Char) : Lexeme × List Char :=
  match closeQuote cs with
  | none => (invalid .unterminatedQuote ('"' :: cs), [])
  | some ([], rest) => (invalid .emptyQuote (quoteName []), rest)
  | some (name, rest) => (⟨.identifier (String.ofList name), quoteName name⟩, rest)

/-- A bare name: the run of identifier characters at the head of the text. -/
def bare (cs : List Char) : Lexeme × List Char :=
  let name := cs.takeWhile isIdentifierChar
  (⟨.identifier (String.ofList name), name⟩, cs.dropWhile isIdentifierChar)

/-- The lexeme at the head of a text that starts with `c`, which is no blank, and the rest. -/
def read (c : Char) (cs : List Char) : Lexeme × List Char :=
  match c, cs with
  | '(', cs => (⟨.leftParen, ['(']⟩, cs)
  | ')', cs => (⟨.rightParen, [')']⟩, cs)
  | ',', cs => (⟨.comma, [',']⟩, cs)
  | '*', cs => (⟨.star, ['*']⟩, cs)
  | '!', cs => (⟨.bang, ['!']⟩, cs)
  | '.', cs => (⟨.dot, ['.']⟩, cs)
  | ':', ':' :: cs => (⟨.doubleColon, [':', ':']⟩, cs)
  | ':', cs => (⟨.colon, [':']⟩, cs)
  | '"', cs => quoted cs
  | c, cs =>
    if isIdentifierChar c then bare (c :: cs) else (invalid (.unexpected c) [c], cs)

theorem quoted_append (cs : List Char) : (quoted cs).1.text ++ (quoted cs).2 = '"' :: cs := by
  unfold quoted
  split
  · simp [invalid]
  · next rest h => simp [invalid, quoteName, eq_of_closeQuote h]
  · next name rest _ h => simp [quoteName, eq_of_closeQuote h]

/-- Lexing loses nothing: a lexeme's text and the rest make up what was read. -/
theorem read_append (c : Char) (cs : List Char) :
    (read c cs).1.text ++ (read c cs).2 = c :: cs := by
  unfold read
  split
  all_goals first
    | rfl
    | exact quoted_append _
    | (split
       · exact List.takeWhile_append_dropWhile
       · rfl)

theorem read_text_ne_nil (c : Char) (cs : List Char) : (read c cs).1.text ≠ [] := by
  unfold read
  split
  all_goals try simp
  · unfold quoted
    split <;> simp [invalid, quoteName]
  · split
    · next h => simp [bare, h]
    · simp [invalid]

theorem length_read_lt (c : Char) (cs : List Char) : (read c cs).2.length < cs.length + 1 := by
  have happend := congrArg List.length (read_append c cs)
  have hpos := List.length_pos_iff.2 (read_text_ne_nil c cs)
  simp only [List.length_append, List.length_cons] at happend
  omega

end Lexeme

/-! ### Lexers -/

/-- A place in a query: the position in bytes and the text from there on. -/
structure Lexer where
  position : Nat := 0
  rest : List Char
deriving DecidableEq, Repr

namespace Lexer

def ofQuery (query : String) : Lexer := ⟨0, query.toList⟩

/-- The lexer behind the blanks it stands at. -/
def skipBlanks (l : Lexer) : Lexer :=
  ⟨l.position + byteLength (l.rest.takeWhile Text.isBlank), l.rest.dropWhile Text.isBlank⟩

/-- The next token and the lexer behind it, or nothing when only blanks are left. -/
def next? (l : Lexer) : Option (Token × Lexer) :=
  match l.skipBlanks with
  | ⟨_, []⟩ => none
  | ⟨position, c :: cs⟩ =>
    let (lexeme, rest) := Lexeme.read c cs
    let stop := position + byteLength lexeme.text
    some (⟨lexeme.kind, ⟨position, stop⟩⟩, ⟨stop, rest⟩)

/-- The end-of-input token of a lexer that has only blanks left. -/
def eofToken (l : Lexer) : Token := ⟨.eof, .point (l.position + byteLength l.rest)⟩

/-- The next token and the lexer behind it. At the end this is the end-of-input token, each time. -/
def next (l : Lexer) : Token × Lexer :=
  l.next?.getD (l.eofToken, l.skipBlanks)

theorem length_rest_lt_of_next? {l l' : Lexer} {t : Token} (h : l.next? = some (t, l')) :
    l'.rest.length < l.rest.length := by
  unfold next? at h
  split at h
  · nomatch h
  · next position c cs hskip =>
    have hrest : l.rest.dropWhile Text.isBlank = c :: cs := congrArg Lexer.rest hskip
    have hle := (List.dropWhile_sublist Text.isBlank (l := l.rest)).length_le
    have hread := Lexeme.length_read_lt c cs
    obtain ⟨-, rfl⟩ := Prod.mk.inj (Option.some.inj h)
    rw [hrest, List.length_cons] at hle
    show (Lexeme.read c cs).2.length < l.rest.length
    omega

/-- The tokens from here on, without the end of the input. -/
def tokens (l : Lexer) : List Token :=
  match h : l.next? with
  | none => []
  | some (t, l') =>
    have := length_rest_lt_of_next? h
    t :: l'.tokens
termination_by l.rest.length

/-- The lexer at the end of its text. -/
def atEnd (l : Lexer) : Lexer := ⟨l.position + byteLength l.rest, []⟩

/-- The tokens from here on, the last being the end of the input, and the lexer at the end. -/
def tokenize (l : Lexer) : List Token × Lexer := (l.tokens ++ [l.eofToken], l.atEnd)

end Lexer

/-- The tokens of a query, the last being the end of the input. -/
def tokenize (query : String) : List Token := (Lexer.ofQuery query).tokenize.1

end EmbedQuery
