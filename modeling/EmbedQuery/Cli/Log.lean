import EmbedQuery.Embedding.Basic
import EmbedQuery.Text.Printable

/-!
# Log lines

What the command line says on the side. Details are left out unless asked for. A line gives the
level, a message, and values by name: texts that were typed stand in quotes, and whatever a terminal
would not show is written as its code point.
-/

namespace EmbedQuery.Cli

/-! ### Texts in log lines -/

/-- The hexadecimal digits of a number, in lower case. -/
def hexText (n : Nat) : String := String.ofList (Nat.toDigits 16 n)

/-- A character by its code point. -/
def codePointText (c : Char) : String := "\\u\x7b" ++ hexText c.toNat ++ "\x7d"

/-- A character inside quotes. -/
def quotedChar (c : Char) : String :=
  match c with
  | '\x00' => "\\0"
  | '\t' => "\\t"
  | '\r' => "\\r"
  | '\n' => "\\n"
  | '"' => "\\\""
  | '\\' => "\\\\"
  | c => if Text.isShownPlain c then c.toString else codePointText c

/-- A text in quotes. -/
def quoteText (text : String) : String :=
  "\"" ++ String.join (text.toList.map quotedChar) ++ "\""

/-- A character of a message: characters that steer a terminal are made visible. -/
def messageChar (c : Char) : String :=
  if c = '\x1b' then "\\x1b"
  else if c = '\x07' then "\\x07"
  else if c = '\x08' then "\\x08"
  else if c = '\x0c' then "\\x0c"
  else if c = '\x7f' then "\\x7f"
  else if 0x80 ≤ c.toNat ∧ c.toNat ≤ 0x9f then codePointText c
  else c.toString

def messageText (text : String) : String := String.join (text.toList.map messageChar)

/-! ### Events -/

/-- Something worth saying. -/
inductive Event
  | catalogBuilt (tables foreignKeys : Nat)
  | catalogLoaded (path : String) (tables : Nat)
  | embedded (parent child : String) (relationship : Relationship) (nullable : Bool)
  | notEmbedded (parent child : String) (error : RelationshipError)
  /-- A query was resolved, with so many fields at the root and parts below it. -/
  | resolved (table : String) (fields parts : Nat)
  | unresolved (count : Nat)
  | unconnected (parent child : String)
  | needsHint (child : String)
deriving DecidableEq, Repr

/-- Whether an event is said only to those who ask for details. -/
def Event.isDetail : Event → Bool
  | .catalogBuilt .. | .catalogLoaded .. | .embedded .. | .notEmbedded .. | .resolved .. => true
  | .unresolved _ | .unconnected .. | .needsHint _ => false

def cardinalityText : Cardinality → String
  | .toOne => "ToOne"
  | .toMany => "ToMany"

/-- The message of an event with its values. -/
def Event.text : Event → String
  | .catalogBuilt tables foreignKeys =>
    s!"schema catalog built tables={tables} foreign_keys={foreignKeys}"
  | .catalogLoaded path tables => s!"catalog loaded path={path} tables={tables}"
  | .embedded parent child relationship nullable =>
    s!"embedding resolved from={parent} to={quoteText child}" ++
      s!" constraint={relationship.constraint}" ++
      s!" cardinality={cardinalityText relationship.cardinality} nullable={nullable}"
  | .notEmbedded parent child error =>
    s!"embedding failed from={parent} to={quoteText child} error={error.message}"
  | .resolved table fields parts =>
    s!"query resolved table={quoteText table} fields={fields} nodes={parts}"
  | .unresolved count => s!"{count} item(s) could not be resolved."
  | .unconnected parent child =>
    messageText s!"No foreign key connects '{parent}' and '{child}'."
  | .needsHint child => messageText s!"Embedding '{child}' needs a hint: {child}!<columnName>"

/-- An event as a line; the level takes five characters. -/
def Event.line (e : Event) : String :=
  (if e.isDetail then "DEBUG " else " INFO ") ++ e.text ++ "\n"

/-- The lines of a log. -/
def logText (verbose : Bool) (events : List Event) : String :=
  String.join ((events.filter fun e => verbose || !e.isDetail).map Event.line)

/-! ### What resolving says -/

mutual

/-- What is said about a part of a tree, in the order of the query: a table before what is in it. -/
def nodeEvents (parent : String) : EmbeddingNode → List Event
  | .resolved embedding children =>
    (embedding.relationship.map fun r =>
      .embedded parent embedding.table r embedding.nullable).toList ++
      listEvents embedding.table children
  | .failed _ (.relationship (.unknown parent child)) =>
    [.notEmbedded parent child (.unknown parent child)]
  | .failed _ (.relationship (.invalidHint parent child hint)) =>
    [.notEmbedded parent child (.invalidHint parent child hint)]
  | .failed _ (.relationship (.ambiguous parent child constraints)) =>
    [.notEmbedded parent child (.ambiguous parent child constraints)]
  | .failed _ (.parse _) | .failed _ (.unknownTable _) | .failed _ (.columnNotFound ..) => []

def listEvents (parent : String) : List EmbeddingNode → List Event
  | [] => []
  | node :: nodes => nodeEvents parent node ++ listEvents parent nodes

end

/-- What is said about a tree. -/
def treeEvents (t : EmbeddingTree) : List Event :=
  listEvents t.root.table t.children ++ [.resolved t.root.table t.root.fields.length t.size]

end EmbedQuery.Cli
