import EmbedQuery.Embedding.Basic
import EmbedQuery.Json.Writer

/-!
# Embedding trees in JSON

An embedding is an object with its children in it, and an error is an object with the key it stands
for. Every member is written, and null stands for what there is none of.
-/

namespace EmbedQuery

open Json

/-- A relationship as an object. -/
def Relationship.toJson (r : Relationship) : Json :=
  record [
    ("foreign_key", ofNat r.position),
    ("constraint", ofText r.constraint),
    ("direction", ofText r.direction.name),
    ("cardinality", ofText r.cardinality.name),
    ("candidates", ofNat r.candidates)]

/-- A field as an object. -/
def Field.toJson (f : Field) : Json :=
  record [
    ("key", ofText f.key),
    ("column", ofText? f.column),
    ("cast", ofText? f.cast),
    ("aggregate", ofText? (f.aggregate.map Aggregate.name)),
    ("nullable", bool f.nullable)]

/-- An embedding as an object, with the values of its children. -/
def Embedding.toJson (e : Embedding) (children : List Json) : Json :=
  record [
    ("key", ofText e.key),
    ("table", ofText e.table),
    ("alias", ofText? e.label),
    ("cardinality", ofText e.cardinality.name),
    ("nullable", bool e.nullable),
    ("join", ofText e.join.label),
    ("relationship", match e.relationship with
      | none => null
      | some relationship => relationship.toJson),
    ("fields", array (e.fields.map Field.toJson)),
    ("children", array children)]

/-- An error as an object. -/
def EmbedError.toJson (e : EmbedError) : Json :=
  record [("kind", ofText e.kind), ("message", ofText e.message)]

mutual

/-- A part as an object. -/
def EmbeddingNode.toJson : EmbeddingNode → Json
  | .resolved embedding children => embedding.toJson (nodesToJson children)
  | .failed key error => record [("key", ofText? key), ("error", error.toJson)]

/-- Several parts as objects. -/
def nodesToJson : List EmbeddingNode → List Json
  | [] => []
  | node :: nodes => node.toJson :: nodesToJson nodes

end

/-- A tree as an object. -/
def EmbeddingTree.toJson (t : EmbeddingTree) : Json := t.root.toJson (nodesToJson t.children)

/-- The JSON text of a tree, on one line or over several. -/
def EmbeddingTree.jsonText (t : EmbeddingTree) (compact : Bool) : String :=
  String.ofList (t.toJson.render (if compact then .line else .lines 0))

end EmbedQuery
