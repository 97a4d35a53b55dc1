import EmbedQuery.Query.Modifiers
import EmbedQuery.Token.Lexer

/-!
# Reading queries

    list      := empty | item (',' item)*
    item      := '*'
               | [name ':'] 'count' '(' ')' ['::' name]
               | [name ':'] name modifier* '(' list ')'
               | [name ':'] name modifier+
               | [name ':'] name ['.' aggregate '(' ')'] ['::' name]
    modifier  := '!' name

A parser stands before a token. It reads an item in two steps: `head` reads everything up to the
parenthesis that opens a block, or the whole item when it is no block, and fails at the first token
that does not fit; `item` adds the list inside and the closing parenthesis, and `itemsFrom` the
items that follow.

Two kinds of errors are told apart. An error that leaves the tokens in step (no alias before a
colon, contradicting modifiers, an unknown aggregate, modifiers on a cast or aggregated column)
takes the place of its item, and reading goes on. Every other error takes the place of what could
not be read and halts the parser, so nothing follows it. A halted parser stays halted: asked to read
on, it reads one item.
-/

namespace EmbedQuery

/-- A place between two tokens of a query. -/
structure Parser where
  /-- Where the token before the place stands. -/
  previous : Span := .point 0
  /-- The tokens behind the place. -/
  rest : List Token
  eof : Token
  /-- The number of blocks the place lies in. -/
  depth : Nat := 0
  /-- An error that ended the reading was met. -/
  halted : Bool := false
deriving Repr

namespace Parser

/-- A parser before the first token of `query`. -/
def ofQuery (query : String) : Parser :=
  let lexer := Lexer.ofQuery query
  { rest := lexer.tokens, eof := lexer.eofToken }

/-- The token behind the place. -/
def current (p : Parser) : Token := p.rest.headD p.eof

/-- What the token behind the place is. -/
def peek (p : Parser) : TokenKind := p.current.kind

/-- The place behind the current token. -/
def advance (p : Parser) : Parser := { p with previous := p.current.span, rest := p.rest.tail }

def halt (p : Parser) : Parser := { p with halted := true }

def enter (p : Parser) : Parser := { p with depth := p.depth + 1 }

def leave (p : Parser) : Parser := { p with depth := p.depth - 1 }

/-- The complaint that the current token is not what was expected. -/
def unexpected (p : Parser) (expected : String) : ParseError :=
  ⟨.unexpected expected p.peek, p.current.span⟩

/-! ### The head of an item -/

/-- Reading steps: they move the parser, and may fail where they stand. -/
abbrev Reading := EStateM ParseError Parser

/-- Reads a token of the given kind, if it is the current one. -/
def accept (kind : TokenKind) : Reading Bool := fun p =>
  if p.peek = kind then .ok true p.advance else .ok false p

/-- Reads a token of the given kind, or fails. -/
def expect (kind : TokenKind) (expected : String) : Reading Unit := fun p =>
  if p.peek = kind then .ok () p.advance else .error (p.unexpected expected) p

def expectName (expected : String) : Reading String := fun p =>
  match p.peek.asIdentifier with
  | some name => .ok name p.advance
  | none => .error (p.unexpected expected) p

/-- The modifiers at the head of a token list, and what follows them. -/
def takeModifiers : List Token → List (String × Span) × List Token
  | ⟨.bang, _⟩ :: ⟨.identifier name, span⟩ :: rest =>
    let (modifiers, rest) := takeModifiers rest
    ((name, span) :: modifiers, rest)
  | rest => ([], rest)

/-- Reads modifiers as long as they go on. -/
def readModifiers : Reading (List (String × Span)) := do
  let p ← get
  let (modifiers, rest) := takeModifiers p.rest
  set { p with previous := (modifiers.getLast?.map Prod.snd).getD p.previous, rest }
  if ← accept .bang then throw ((← get).unexpected "join modifier or hint")
  return modifiers

/-- Reads `.function()`, if a dot comes next: the aggregate, or the complaint that there is none of
that name. -/
def readAggregate : Reading (Except ParseError (Option Aggregate)) := do
  if !(← accept .dot) then return .ok none
  let span := (← get).current.span
  let function ← expectName "aggregate function"
  expect .leftParen "'('"
  expect .rightParen "')'"
  match Aggregate.ofName? function with
  | some aggregate => return .ok (some aggregate)
  | none => return .error ⟨.unknownAggregate function, span⟩

/-- Reads `::type`, if two colons come next. -/
def readCast : Reading (Option String) := do
  if ← accept .doubleColon then return some (← expectName "type name") else return none

/-- An item, or the error that takes its place. -/
def itemOr (fault : Option ParseError) (item : SelectItem) : SelectItem :=
  match fault with
  | none => item
  | some error => .invalid error [item]

/-- What stands at the head of an item. -/
inductive Head
  | complete (item : SelectItem)
  /-- A resource up to the parenthesis that opens its block, with the error to take its place. -/
  | opening (resource : Resource) (fault : Option ParseError)

def readName : Reading (Option String × String) := do
  let first ← expectName "column or embedded resource"
  if ← accept .colon then
    return (some first, ← expectName "column or embedded resource after alias")
  return (none, first)

/-- Reads what follows the opening parenthesis of an item, up to the list inside. -/
def readOpening (resource : Resource) (isCount : Bool) (fault : Option ParseError) :
    Reading Head := do
  if isCount && (← get).peek = .rightParen then
    modify advance
    let cast ← readCast
    let span := resource.span.cover (← get).previous
    return .complete (itemOr fault (.count resource.label cast span))
  let p ← get
  if maxDepth ≤ p.depth then throw ⟨.tooDeep, p.previous⟩
  return .opening resource fault

/-- The item that a name makes with what follows it, which are no parentheses. Modifiers, which make
it a resource, leave no room for an aggregate or a cast. -/
def suffixItem (resource : Resource) (isResource : Bool) (fault : Option ParseError)
    (aggregate : Except ParseError (Option Aggregate)) (cast : Option String) : SelectItem :=
  let (aggregate, fault) := match aggregate with
    | .ok aggregate => (aggregate, fault)
    | .error error => (none, fault.or (some error))
  if isResource then
    let misplaced := aggregate.isSome || cast.isSome
    let fault := fault.or (if misplaced then some ⟨.misplacedModifiers, resource.span⟩ else none)
    itemOr fault (.bare resource)
  else itemOr fault (.column ⟨resource.name, resource.label, cast, aggregate, resource.span⟩)

/-- Reads what follows the name of an item without parentheses. -/
def readSuffix (resource : Resource) (isResource : Bool) (fault : Option ParseError) :
    Reading SelectItem := do
  let aggregate ← readAggregate
  let cast ← readCast
  let span := resource.span.cover (← get).previous
  return suffixItem { resource with span } isResource fault aggregate cast

/-- Reads what follows the modifiers of an item. -/
def readBody (resource : Resource) (isResource : Bool) (fault : Option ParseError) :
    Reading Head := do
  if ← accept .leftParen then
    readOpening resource (resource.name = "count" && !isResource) fault
  else
    return .complete (← readSuffix resource isResource fault)

def head : Reading Head := do
  let start := (← get).current.span
  if ← accept .star then return .complete (.wildcard start)
  let emptyAlias := if ← accept .colon then some ⟨.emptyAlias, start⟩ else none
  let (label, name) ← readName
  let modifiers ← readModifiers
  let ⟨join, hint, conflict⟩ := Modifiers.ofList modifiers
  readBody { name, label, hint, join, span := start } (!modifiers.isEmpty) (emptyAlias.or conflict)

/-! ### Lists -/

/-- Ends a block behind its list: reads the closing parenthesis, unless the parser is halted. A
block without one is an error, which discards its items. -/
def close (resource : Resource) (fault : Option ParseError) (items : List SelectItem)
    (p : Parser) : SelectItem × Parser :=
  if p.halted then
    (itemOr fault (.block { resource with span := resource.span.cover p.previous } items), p)
  else if p.peek = .rightParen then
    (itemOr fault (.block { resource with span := resource.span.cover p.current.span } items),
      p.advance)
  else (.invalid (p.unexpected "',' or ')'") items, p.halt)

/-- Reads one item; `items` reads the list inside a block. -/
def item (items : Parser → List SelectItem × Parser) (p : Parser) : SelectItem × Parser :=
  match head p with
  | .error error p => (.invalid error [], p.halt)
  | .ok (.complete item) p => (item, p)
  | .ok (.opening resource fault) p =>
    let (inner, p) := if p.peek = .rightParen then ([], p.enter) else items p.enter
    close resource fault inner p.leave

/-- Reads one item or more, with commas between them. The first argument bounds the number of steps;
the number of tokens is always enough. -/
def itemsFrom : Nat → Parser → List SelectItem × Parser
  | 0, p => ([], p)
  | fuel + 1, p =>
    let (item, p) := p.item (itemsFrom fuel)
    if p.halted || p.peek ≠ .comma then ([item], p)
    else
      let (items, p) := itemsFrom fuel p.advance
      (item :: items, p)

/-- Reads a list up to the end of the input, and leaves the parser where the reading ended. -/
def parse (p : Parser) : QueryTree × Parser :=
  let (items, p) := if p.peek = .eof then ([], p) else itemsFrom (p.rest.length + 1) p
  if p.halted || p.peek = .eof then (⟨items⟩, p)
  else (⟨items ++ [.invalid (p.unexpected "',' or end of input") []]⟩, p.halt)

/-- Reads a list up to the end of the input; the first error counts for the whole. -/
def parseStrict (p : Parser) : Except ParseError QueryTree × Parser :=
  let (tree, p) := p.parse
  match tree.errors with
  | [] => (.ok tree, p)
  | error :: _ => (.error error, p)

end Parser

def QueryTree.parse (query : String) : QueryTree := (Parser.ofQuery query).parse.1

end EmbedQuery
