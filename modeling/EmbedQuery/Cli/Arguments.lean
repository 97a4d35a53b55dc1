/-!
# Command lines

    [-c FILE | --catalog FILE] [-v | --verbose] COMMAND

    resolve TABLE QUERY [--compact] [--deny-errors]
    parse QUERY
    tokens QUERY
    relationships TABLE TABLE

Short options may share a dash (`-vc FILE`), and a value may follow its option directly or behind an
equals sign. No option may be given twice. The options before the command are those of every
command; behind `--` an argument is no option whatever it starts with.
-/

namespace EmbedQuery.Cli

inductive Command
  | resolve (table query : String) (compact denyErrors : Bool)
  | parse (query : String)
  | tokens (query : String)
  | relationships (parent child : String)
deriving DecidableEq, Repr

/-- A command with the options of every command. -/
structure Invocation where
  catalog : String
  verbose : Bool
  command : Command
deriving DecidableEq, Repr

/-- Why a command line means nothing. -/
inductive UsageError
  | unknownOption (argument : String)
  | repeatedOption (option : String)
  | missingValue (option : String)
  | unexpectedValue (option : String)
  | missingCommand
  | unknownCommand (name : String)
  | missingArgument
  | extraArgument (argument : String)
deriving DecidableEq, Repr

def UsageError.message : UsageError → String
  | unknownOption argument => s!"unknown option '{argument}'"
  | repeatedOption option => s!"option '{option}' is given more than once"
  | missingValue option => s!"option '{option}' needs a value"
  | unexpectedValue option => s!"option '{option}' takes no value"
  | missingCommand => "a command is missing"
  | unknownCommand name => s!"unknown command '{name}'"
  | missingArgument => "an argument is missing"
  | extraArgument argument => s!"unexpected argument '{argument}'"

/-- The path of the catalog if neither an option nor the environment gives one. -/
def defaultCatalog : String := "catalog.json"

/-! ### Options of every command -/

/-- The options read so far. -/
structure Globals where
  catalog : Option String := none
  verbose : Bool := false
deriving DecidableEq, Repr

namespace Globals

def setCatalog (g : Globals) (path : String) : Except UsageError Globals :=
  if g.catalog.isSome then .error (.repeatedOption "--catalog")
  else if path.isEmpty then .error (.missingValue "--catalog")
  else .ok { g with catalog := some path }

def setVerbose (g : Globals) : Except UsageError Globals :=
  if g.verbose then .error (.repeatedOption "--verbose") else .ok { g with verbose := true }

end Globals

/-- An argument that is read as an option: it starts with a dash and is not the dash alone. -/
def isOption (argument : String) : Bool := argument.startsWith "-" && argument ≠ "-"

/-- What an argument says: the options it sets, and whether its last option waits for its value in
the next argument. -/
structure Step where
  globals : Globals
  awaitsCatalog : Bool := false

/-- Reads the letters behind a single dash. -/
def readShort (g : Globals) : List Char → Except UsageError Step
  | [] => .ok { globals := g }
  | ['c'] => .ok { globals := g, awaitsCatalog := true }
  | 'c' :: '=' :: path => do return { globals := ← g.setCatalog (String.ofList path) }
  | 'c' :: path => do return { globals := ← g.setCatalog (String.ofList path) }
  | 'v' :: '=' :: _ => .error (.unexpectedValue "-v")
  | 'v' :: letters => do readShort (← g.setVerbose) letters
  | letter :: _ => .error (.unknownOption s!"-{letter}")

/-- The text behind an equals sign, and the name before it. -/
def splitValue (text : List Char) : List Char × Option (List Char) :=
  match text.dropWhile (· ≠ '=') with
  | [] => (text, none)
  | _ :: value => (text.takeWhile (· ≠ '='), some value)

/-- Reads the text behind two dashes. -/
def readLong (g : Globals) (text : List Char) : Except UsageError Step :=
  match splitValue text with
  | (name, value) =>
    match String.ofList name, value with
    | "catalog", none => .ok { globals := g, awaitsCatalog := true }
    | "catalog", some path => do return { globals := ← g.setCatalog (String.ofList path) }
    | "verbose", none => do return { globals := ← g.setVerbose }
    | "verbose", some _ => .error (.unexpectedValue "--verbose")
    | name, _ => .error (.unknownOption s!"--{name}")

/-- Reads an argument that is an option. -/
def readOption (g : Globals) (argument : String) : Except UsageError Step :=
  match argument.toList with
  | '-' :: '-' :: text => readLong g text
  | '-' :: letters => readShort g letters
  | _ => .error (.unknownOption argument)

/-- Reads the options at the head of a command line; gives them with the name of the command and the
arguments behind it. -/
def readGlobals (g : Globals) :
    List String → Except UsageError (Globals × String × List String)
  | [] => .error .missingCommand
  | argument :: arguments =>
    if isOption argument then do
      let step ← readOption g argument
      if step.awaitsCatalog then
        match arguments with
        | [] => .error (.missingValue "--catalog")
        | path :: arguments =>
          if isOption path then .error (.missingValue "--catalog")
          else readGlobals (← step.globals.setCatalog path) arguments
      else readGlobals step.globals arguments
    else .ok (g, argument, arguments)

/-! ### Arguments of a command -/

/-- The arguments of a command: values in order, and the options given. -/
structure Arguments where
  values : List String := []
  options : List String := []
deriving DecidableEq, Repr

/-- Reads the arguments of a command that knows the options `known`. -/
def readArguments (known : List String) (a : Arguments) :
    List String → Except UsageError Arguments
  | [] => .ok a
  | argument :: arguments =>
    if argument = "--" then .ok { a with values := a.values ++ arguments }
    else if isOption argument then
      if argument ∉ known then .error (.unknownOption argument)
      else if argument ∈ a.options then .error (.repeatedOption argument)
      else readArguments known { a with options := argument :: a.options } arguments
    else readArguments known { a with values := a.values ++ [argument] } arguments

def oneValue (a : Arguments) : Except UsageError String :=
  match a.values with
  | [] => .error .missingArgument
  | [value] => .ok value
  | _ :: extra :: _ => .error (.extraArgument extra)

def twoValues (a : Arguments) : Except UsageError (String × String) :=
  match a.values with
  | [] | [_] => .error .missingArgument
  | [first, second] => .ok (first, second)
  | _ :: _ :: extra :: _ => .error (.extraArgument extra)

/-- Reads the arguments of the command of that name. -/
def readCommand (name : String) (arguments : List String) : Except UsageError Command := do
  match name with
  | "resolve" =>
    let a ← readArguments ["--compact", "--deny-errors"] {} arguments
    let (table, query) ← twoValues a
    return .resolve table query (a.options.contains "--compact")
      (a.options.contains "--deny-errors")
  | "parse" => return .parse (← oneValue (← readArguments [] {} arguments))
  | "tokens" => return .tokens (← oneValue (← readArguments [] {} arguments))
  | "relationships" =>
    let (parent, child) ← twoValues (← readArguments [] {} arguments)
    return .relationships parent child
  | name => throw (.unknownCommand name)

/-- The path of the catalog: the option counts first, then the environment. -/
def catalogPath (option environment : Option String) : Except UsageError String :=
  match option, environment with
  | some path, _ => .ok path
  | none, some "" => .error (.missingValue "--catalog")
  | none, some path => .ok path
  | none, none => .ok defaultCatalog

/-- What a command line means; `environment` is the path of the catalog that the environment
gives. -/
def Invocation.ofArguments (arguments : List String) (environment : Option String) :
    Except UsageError Invocation := do
  let (globals, name, arguments) ← readGlobals {} arguments
  let command ← readCommand name arguments
  let catalog ← catalogPath globals.catalog environment
  return { catalog, verbose := globals.verbose, command }

/-- The path of the catalog, if the command reads it. -/
def Invocation.catalogPath? (i : Invocation) : Option String :=
  match i.command with
  | .resolve .. | .relationships .. => some i.catalog
  | .parse _ | .tokens _ => none

end EmbedQuery.Cli
