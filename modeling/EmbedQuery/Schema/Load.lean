import EmbedQuery.Folder
import EmbedQuery.Schema.Document

/-!
# Loading catalogs

A catalog comes from the text of a file. Three things can go wrong in turn: the file cannot be read,
its text is no document, or the document breaks a rule of catalogs.
-/

namespace EmbedQuery

/-- Why a file gave no catalog. -/
inductive LoadError
  /-- The file could not be read. -/
  | unreadable (path : String) (failure : ReadFailure)
  /-- The text is no catalog document. -/
  | malformed
  /-- The document breaks a rule. -/
  | invalid (path : String) (violation : Violation)
deriving DecidableEq, Repr

namespace LoadError

/-- The text of the error. -/
def message : LoadError → String
  | unreadable path failure => s!"Failed to read catalog '{path}': {failure.message}"
  | malformed => "Failed to parse catalog"
  | invalid path violation => s!"Invalid catalog '{path}': {violation.message}"

/-- The text of what lies behind the error. -/
def cause? : LoadError → Option String
  | unreadable _ failure => some failure.message
  | malformed => none
  | invalid _ violation => some violation.message

end LoadError

namespace Catalog

/-- The catalog in a text; `path` is for error texts only. -/
def ofText (path text : String) : Except LoadError Catalog :=
  match Document.parse? text with
  | none => .error .malformed
  | some document => (ofDocument document).mapError (.invalid path)

/-- The catalog in a file, given what reading the file at `path` came to. -/
def load (path : String) (content : Except ReadFailure String) : Except LoadError Catalog :=
  match content with
  | .error failure => .error (.unreadable path failure)
  | .ok text => ofText path text

end Catalog

end EmbedQuery
