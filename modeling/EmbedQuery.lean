import EmbedQuery.Embedding.Arena
import EmbedQuery.Main
import EmbedQuery.Query.Arena
import EmbedQuery.Schema.Draft
import EmbedQuery.Proofs.Query.Spans
import EmbedQuery.Proofs.Query.Grammar
import EmbedQuery.Proofs.Query.Modifiers
import EmbedQuery.Proofs.Query.Reading
import EmbedQuery.Proofs.Query.Head
import EmbedQuery.Proofs.Query.Exactness
import EmbedQuery.Proofs.Query.Steps
import EmbedQuery.Proofs.Query.Stopping
import EmbedQuery.Proofs.Query.Calls
import EmbedQuery.Proofs.Token.Kinds
import EmbedQuery.Proofs.Token.Spelling
import EmbedQuery.Proofs.Token.Splitting
import EmbedQuery.Proofs.Query.RoundTrip
import EmbedQuery.Proofs.Relationship.Lookup
import EmbedQuery.Proofs.Schema.Tables
import EmbedQuery.Proofs.Relationship.Cardinality
import EmbedQuery.Proofs.Embedding.WellTyped
import EmbedQuery.Proofs.Embedding.Consistency
import EmbedQuery.Proofs.Query.Survivors
import EmbedQuery.Proofs.Query.Canonicity
import EmbedQuery.Proofs.Embedding.ParseErrors
import EmbedQuery.Proofs.Embedding.Presence
import EmbedQuery.Proofs.Embedding.Numbering
import EmbedQuery.Proofs.Embedding.Composition
import EmbedQuery.Proofs.Embedding.Spans
import EmbedQuery.Proofs.Relationship.Opposite
import EmbedQuery.Proofs.Relationship.Rearrangement
import EmbedQuery.Proofs.Embedding.Rearrangement
import EmbedQuery.Proofs.Embedding.Extension
import EmbedQuery.Proofs.Schema.Rules
import EmbedQuery.Proofs.Token.Lossless
import EmbedQuery.Proofs.Embedding.Composer
import EmbedQuery.Proofs.Embedding.Forest
import EmbedQuery.Proofs.Query.Numbering
import EmbedQuery.Proofs.Query.Builder
import EmbedQuery.Proofs.Query.Lists
import EmbedQuery.Proofs.Query.Taken
import EmbedQuery.Proofs.Query.ErrorOrder
import EmbedQuery.Proofs.Query.Locality
import EmbedQuery.Proofs.Query.Completion
import EmbedQuery.Proofs.Query.Lookahead
import EmbedQuery.Proofs.Query.Concatenation
import EmbedQuery.Proofs.Schema.Normalization
import EmbedQuery.Proofs.Embedding.Listing
import EmbedQuery.Proofs.Query.Gap
import EmbedQuery.Proofs.Embedding.Gaps
import EmbedQuery.Proofs.Embedding.Shorthand
import EmbedQuery.Proofs.Embedding.Modifiers
import EmbedQuery.Proofs.Query.Answers
import EmbedQuery.Proofs.Query.ModifierSets
import EmbedQuery.Proofs.Token.Cuts
import EmbedQuery.Proofs.Query.Layout
import EmbedQuery.Proofs.Query.Excerpts
import EmbedQuery.Proofs.Embedding.Json
import EmbedQuery.Proofs.Embedding.KeyPaths
