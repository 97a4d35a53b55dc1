import EmbedQuery.Span

/-!
# Tokens

The pieces a query is made of: names, a few marks, the end of the input, and pieces that could not
be read, which carry the text of the complaint.
-/

namespace EmbedQuery

/-- What a token is. -/
inductive TokenKind
  | identifier (name : String)
  | star
  | comma
  | leftParen
  | rightParen
  | colon
  | doubleColon
  | bang
  | dot
  | eof
  | error (message : String)
deriving DecidableEq, Inhabited, Repr

namespace TokenKind

/-- The token as error texts name it: marks stand in quotes, a piece that could not be read is
named by its complaint. -/
def describe : TokenKind → String
  | identifier name => s!"identifier '{name}'"
  | star => "'*'"
  | comma => "','"
  | leftParen => "'('"
  | rightParen => "')'"
  | colon => "':'"
  | doubleColon => "'::'"
  | bang => "'!'"
  | dot => "'.'"
  | eof => "end of input"
  | error message => message

/-- Whether this is the end of the input. -/
def isEof : TokenKind → Bool
  | eof => true
  | _ => false

/-- The name, if the token is one. -/
def asIdentifier : TokenKind → Option String
  | identifier name => some name
  | _ => none

end TokenKind

/-- A token and where it stands. -/
structure Token where
  kind : TokenKind
  span : Span
deriving DecidableEq, Inhabited, Repr

end EmbedQuery
