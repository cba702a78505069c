import PipelineEditor.Plugin.Declaration

/-!
# Nodes of a pipeline

A node is one plugin placed in a pipeline, with the values of its properties, the text of its
output schema and what the backend declares about its plugin.

* `Node` — a node, with its reading and its written form;
* `Node.withListings` — **a node after the backend has answered**: the first entry of the answer
  counts, and its description fills an empty one.
-/

namespace PipelineEditor

/-- A plugin placed in a pipeline. -/
structure Node where
  id : String
  /-- The name of the plugin. -/
  name : String
  /-- The type of the plugin. -/
  type : String
  label : Option String
  description : Option String
  properties : SortedMap String
  /-- The text of the output schema, if one is configured. -/
  schema : Option String
  /-- What the backend declares about the plugin. -/
  declarations : Declarations
  /-- Whether the plugin fixes the output schema. -/
  implicit : Bool

namespace Node

instance : Wire Node where
  read? s := do
    let r ← s.record? ["id", "name", "type", "label", "description", "properties",
      "outputSchema", "_backendProperties", "implicitSchema"]
    return {
      id := ← r.withDefault? "id" ""
      name := ← r.required? "name"
      type := ← r.withDefault? "type" ""
      label := ← r.optional? "label"
      description := ← r.optional? "description"
      properties := ← r.withDefault? "properties" SortedMap.empty
      schema := ← r.optional? "outputSchema"
      declarations := ← r.withDefault? "_backendProperties" OrderedMap.empty
      implicit := ← r.withDefault? "implicitSchema" false }
  write n := .object
    (Json.member "id" n.id ++ Json.member "name" n.name ++ Json.member "type" n.type
      ++ Json.memberIfSome "label" n.label ++ Json.memberIfSome "description" n.description
      ++ Json.member "properties" n.properties ++ Json.memberIfSome "outputSchema" n.schema
      ++ Json.member "_backendProperties" n.declarations
      ++ Json.member "implicitSchema" n.implicit)

/-- Whether the backend declares no property for the plugin. -/
def declaresNothing (n : Node) : Bool := n.declarations.isEmpty

/-- A node after the backend has answered.  An empty answer only takes the declarations away. -/
def withListings (n : Node) : List PluginListing → Node
  | [] => { n with declarations := OrderedMap.empty }
  | entry :: _ =>
    { n with
      declarations := entry.properties
      description := if n.description.getD "" = "" then some entry.description else n.description }

end Node

end PipelineEditor
