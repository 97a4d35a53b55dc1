import EmbedQuery.Token

/-!
# Parse errors

What can be wrong with a query, and where. Some causes concern one item only, and reading goes on
behind it; an unexpected token and too deep a nesting end the reading (`Cause.isFatal`).
-/

namespace EmbedQuery

/-- The number of parenthesised blocks that may stand inside each other. -/
def maxDepth : Nat := 128

namespace ParseError

inductive Cause
  /-- A colon without a name before it. -/
  | emptyAlias
  /-- Both `!inner` and `!left` on one resource. -/
  | conflictingJoins
  /-- Two hints on one resource. -/
  | conflictingHints (first second : String)
  /-- A modifier on a column that is cast or aggregated. -/
  | misplacedModifiers
  /-- A function that is no aggregate. -/
  | unknownAggregate (function : String)
  /-- More blocks inside each other than allowed. -/
  | tooDeep
  /-- A token that cannot stand where it stands. -/
  | unexpected (expected : String) (found : TokenKind)
deriving DecidableEq, Repr

/-- Whether nothing behind the error can be read. -/
def Cause.isFatal : Cause → Bool
  | tooDeep | unexpected .. => true
  | emptyAlias | conflictingJoins | conflictingHints .. | misplacedModifiers
  | unknownAggregate _ => false

/-- The text of an error, without its place. A piece that is no token explains itself. -/
def Cause.message : Cause → String
  | emptyAlias => "Empty alias before ':'"
  | conflictingJoins => "Conflicting join modifiers '!inner' and '!left'"
  | conflictingHints first second => s!"Conflicting hints '!{first}' and '!{second}'"
  | misplacedModifiers => "Join modifiers and hints are only allowed on embedded resources"
  | unknownAggregate function => s!"Unknown aggregate function '{function}'"
  | tooDeep => s!"Nesting too deep (more than {maxDepth} levels)"
  | unexpected expected .eof => s!"Unexpected end of input: expected {expected}"
  | unexpected _ (.error message) => message
  | unexpected expected found =>
    s!"Unexpected token: expected {expected}, found {found.describe}"

end ParseError

/-- A cause and the place it concerns. -/
structure ParseError where
  cause : ParseError.Cause
  span : Span
deriving DecidableEq, Repr

namespace ParseError

def message (e : ParseError) : String := e.cause.message

/-- What should have stood there, if the error is about a token. -/
def expected (e : ParseError) : Option String :=
  match e.cause with
  | .unexpected expected _ => some expected
  | _ => none

/-- The token that stands there, if the error is about a token. -/
def found (e : ParseError) : Option TokenKind :=
  match e.cause with
  | .unexpected _ found => some found
  | _ => none

/-- Whether the input ended too early. -/
def isEof (e : ParseError) : Bool := e.found == some .eof

/-- The text of the error with its place. -/
def display (e : ParseError) : String := s!"{e.message} at position {e.span.display}"

end ParseError

end EmbedQuery
