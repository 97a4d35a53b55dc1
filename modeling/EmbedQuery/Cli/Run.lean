import EmbedQuery.Cli.Arguments
import EmbedQuery.Cli.Log
import EmbedQuery.Embedding.Json
import EmbedQuery.Embedding.Resolve
import EmbedQuery.Report
import EmbedQuery.Schema.Load

/-!
# Running commands

A command turns the text of a catalog file into what appears on the two outputs and an exit code.
Reading the file is left to the caller.
-/

namespace EmbedQuery.Cli

/-- What a command leaves behind. -/
structure Outcome where
  /-- The exit code: 0 for success and 1 for failure. -/
  code : Nat := 0
  stdout : String := ""
  stderr : String := ""
deriving DecidableEq, Repr

def line (text : String) : String := text ++ "\n"

/-- The text with each of its lines set in by four blanks. -/
def indent (text : String) : String :=
  String.join (text.toList.map fun c => if c = '\n' then "\n    " else c.toString) |> ("    " ++ ·)

/-- An error that ends a command, with what lies behind it. -/
def fatalText (message : String) (cause : Option String) : String :=
  line s!"Error: {message}" ++
    match cause with
    | none => ""
    | some cause => line "" ++ line "Caused by:" ++ line (indent cause)

/-- An error in loading, as shown: a text that is no document is not looked into. -/
def loadErrorText (e : LoadError) : String :=
  match e.cause? with
  | none => e.message
  | some cause => fatalText e.message (some cause)

/-- What loading a catalog says. -/
def catalogEvents (path : String) (c : Catalog) : List Event :=
  [.catalogBuilt c.tables.length c.foreignKeys.length, .catalogLoaded path c.tables.length]

def runParse (query : String) : Outcome :=
  let report := ParseReport.ofQuery query
  { code := if report.errors.isEmpty then 0 else 1
    stdout := line report.canonical
    stderr := String.join (report.errors.map fun e => line s!"error: {e}") }

def runTokens (query : String) : Outcome :=
  { stdout := String.join ((tokenRows query).map fun row => line row.format) }

def runResolve (verbose : Bool) (path : String) (catalog : Catalog) (table query : String)
    (compact denyErrors : Bool) : Outcome :=
  let resolver : Resolver := { catalog }
  match resolver.resolveText table query with
  | .error e =>
    { code := 1
      stderr := logText verbose (catalogEvents path catalog) ++ fatalText e.message none }
  | .ok tree =>
    let failures := tree.errors.length
    let summary := if failures = 0 then [] else [Event.unresolved failures]
    { code := if failures ≠ 0 ∧ denyErrors then 1 else 0
      stdout := line (tree.jsonText compact)
      stderr := logText verbose (catalogEvents path catalog ++ treeEvents tree ++ summary) }

def runRelationships (verbose : Bool) (path : String) (catalog : Catalog) (parent child : String) :
    Outcome :=
  let rows := Resolver.rows { catalog } parent child
  let advice :=
    match rows with
    | [] => [Event.unconnected parent child]
    | [_] => []
    | _ => [Event.needsHint child]
  let listing :=
    if rows.isEmpty then ""
    else
      line "" ++ line s!"Relationships from {parent} to {child}:" ++
        line (String.ofList (List.replicate 60 '-')) ++
        String.join (rows.map fun row => line (" " ++ row.format)) ++ line ""
  { stdout := listing
    stderr := logText verbose (catalogEvents path catalog ++ advice) }

/-- Runs a command on what loading its catalog came to. -/
def runLoaded (content : Except LoadError Catalog) (run : Catalog → Outcome) : Outcome :=
  match content with
  | .error e => { code := 1, stderr := loadErrorText e }
  | .ok catalog => run catalog

/-- Runs a command; `read` gives what reading the file at a path comes to. -/
def Invocation.run (i : Invocation) (read : String → Except ReadFailure String) : Outcome :=
  let load := Catalog.load i.catalog (read i.catalog)
  match i.command with
  | .parse query => runParse query
  | .tokens query => runTokens query
  | .resolve table query compact denyErrors =>
    runLoaded load fun catalog =>
      runResolve i.verbose i.catalog catalog table query compact denyErrors
  | .relationships parent child =>
    runLoaded load fun catalog => runRelationships i.verbose i.catalog catalog parent child

def run (arguments : List String) (environment : Option String)
    (read : String → Except ReadFailure String) : Except UsageError Outcome := do
  return (← Invocation.ofArguments arguments environment).run read

end EmbedQuery.Cli
