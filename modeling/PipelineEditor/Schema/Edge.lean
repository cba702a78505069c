import PipelineEditor.Node
import PipelineEditor.Schema.Embedded
import PipelineEditor.Schema.Stored

/-!
# Schemas on the connections of a pipeline

A connection carries the columns of the node it starts from.  For most nodes these are the
columns of their output schema.  A stream puts a time stamp and headers in front, and the format
of a stream may fix its other columns.  On a connection only a union makes a column nullable; the
flag of the field itself does not count.

* `Node.edgeFields?` — the fields of a connection before their types are looked at;
* `Node.edgeColumns?` — **the columns of a connection that starts from a node**;
* `edgeColumnsFrom?` — the same for the node with an id.
-/

namespace PipelineEditor

namespace Node

/-- Whether a node is a stream. -/
def isStream (n : Node) : Bool := n.name == "Stream"

/-- The fields that come first in every event of a stream. -/
def streamHead : List StoredField :=
  [⟨"ts", .string "long", false⟩,
   ⟨"headers", .object [("type", .string "map"), ("keys", .string "string"),
      ("values", .string "string")], false⟩]

/-- The only field of the body of a stream about which nothing else is known. -/
def streamBody : List StoredField := [⟨"body", .string "string", false⟩]

/-- The text of the schema that the format of a stream implies. -/
def formatSchema? (n : Node) (implied : ImpliedSchemas) : Option String :=
  (n.properties.get? "format").bind implied.schemaText?

/-- The fields of a connection that starts from a node. -/
def edgeFields? (n : Node) (implied : ImpliedSchemas) : Option (List StoredField) :=
  if n.isStream then
    let text := (n.formatSchema? implied).orElse fun _ => n.schema
    some (streamHead ++ (storedFields? text).getD streamBody)
  else storedFields? n.schema

/-- The columns of a connection that starts from a node. -/
def edgeColumns? (n : Node) (implied : ImpliedSchemas) : Option (List Column) :=
  (n.edgeFields? implied).map fun fields => fields.filterMap (·.columnAs? false)

end Node

/-- The columns of a connection that starts from the first node with an id. -/
def edgeColumnsFrom? (nodes : List Node) (source : String) (implied : ImpliedSchemas) :
    Option (List Column) :=
  (nodes.find? fun n => n.id = source).bind (·.edgeColumns? implied)

end PipelineEditor
