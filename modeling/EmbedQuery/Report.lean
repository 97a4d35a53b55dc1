import EmbedQuery.Query.Canonical
import EmbedQuery.Query.Parser
import EmbedQuery.Relationship.Resolver

/-!
# Listings

What the command line shows: the tokens of a query, its canonical form with the errors left out of
it, and the ways between two tables.
-/

namespace EmbedQuery

/-- The text padded with blanks on the right to `width` characters. -/
def padRight (width : Nat) (text : String) : String :=
  text ++ String.ofList (List.replicate (width - text.length) ' ')

/-- The text padded with blanks on the left to `width` characters. -/
def padLeft (width : Nat) (text : String) : String :=
  String.ofList (List.replicate (width - text.length) ' ') ++ text

/-- A token as listed: its place, its description and the text it covers. -/
structure TokenRow where
  span : Span
  kind : String
  text : String
deriving DecidableEq, Repr

/-- The tokens of a query, the last being the end of the input. -/
def tokenRows (query : String) : List TokenRow :=
  (tokenize query).map fun token =>
    ⟨token.span, token.kind.describe, (token.span.text query).getD ""⟩

/-- A row as a line, in columns. -/
def TokenRow.format (r : TokenRow) : String :=
  padLeft 4 (toString r.span.start) ++ ".." ++ padRight 4 (toString r.span.stop) ++ " " ++
    padRight 28 r.kind ++ " " ++ r.text

/-- A query read without a catalog. -/
structure ParseReport where
  canonical : String
  errors : List String
deriving DecidableEq, Repr

/-- The canonical form of a query and the texts of its errors. -/
def ParseReport.ofQuery (query : String) : ParseReport :=
  let tree := QueryTree.parse query
  ⟨tree.canonical, tree.errors.map ParseError.display⟩

/-- A way between two tables as listed. -/
structure RelationshipRow where
  constraint : String
  direction : Direction
  cardinality : Cardinality
  /-- The table that holds the key, with its columns. -/
  source : String
  /-- The table referred to, with its columns. -/
  target : String
deriving DecidableEq, Repr

/-- A table with some of its columns, as listed. -/
def tableWithColumns (table : String) (columns : List String) : String :=
  table ++ "(" ++ ", ".intercalate columns ++ ")"

def Resolver.rows (r : Resolver) (parent child : String) : List RelationshipRow :=
  (r.candidates parent child).map fun c =>
    { constraint := c.key.name
      direction := c.direction
      cardinality := r.catalog.cardinality c
      source := tableWithColumns c.key.table c.key.columns
      target := tableWithColumns c.key.referencesTable c.key.referencesColumns }

def Cardinality.word : Cardinality → String
  | toOne => "to-one"
  | toMany => "to-many"

/-- A row as a line, in columns. -/
def RelationshipRow.format (r : RelationshipRow) : String :=
  " ".intercalate [padRight 40 r.constraint, padRight 8 r.direction.name,
    padRight 8 r.cardinality.word, r.source, "->", r.target]

end EmbedQuery
