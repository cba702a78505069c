import PipelineEditor.Source.Record

/-!
# Widget configurations

A widget configuration says how the properties of a plugin are grouped and shown, and how the
plugin's output schema is declared: fixed by the plugin, or stored in one of the node's
properties.

* `FieldWidget` — how one property is shown; members without a meaning here are kept as they are;
* `GroupLayout`, `Layout` — a group of fields; the groups and their order;
* `TypeOptions`, `SchemaDeclaration` — the types offered for a stored schema; the declaration;
* `WidgetConfig` — the whole configuration.
-/

namespace PipelineEditor

/-- How a property is shown. -/
structure FieldWidget where
  widget : Option String
  label : Option String
  info : Option String
  description : Option String
  /-- Settings of the widget; `default` is a value for a property that has none. -/
  properties : SortedMap Json
  /-- Everything else, for the renderer. -/
  attributes : SortedMap Json

namespace FieldWidget

/-- The widget of a field about which nothing is said. -/
def plain : FieldWidget :=
  ⟨none, none, none, none, SortedMap.empty, SortedMap.empty⟩

instance : Wire FieldWidget where
  read? s := do
    let (r, others) ← s.openRecord? ["widget", "label", "info", "description", "properties"]
    let attributes : List (String × Json) ← Wire.readValues? others
    return {
      widget := ← r.optional? "widget"
      label := ← r.optional? "label"
      info := ← r.optional? "info"
      description := ← r.optional? "description"
      properties := ← r.withDefault? "properties" SortedMap.empty
      attributes := SortedMap.ofList attributes }
  write f := .object
    (Json.memberIfSome "widget" f.widget ++ Json.memberIfSome "label" f.label
      ++ Json.memberIfSome "info" f.info ++ Json.memberIfSome "description" f.description
      ++ Json.memberIfNonempty "properties" f.properties ++ f.attributes.entries)

/-- The configured default value, if there is one. -/
def default? (f : FieldWidget) : Option Json := f.properties.get? "default"

end FieldWidget

/-- A group of fields that are shown together. -/
structure GroupLayout where
  /-- The heading of the group. -/
  display : String
  /-- The names of the fields in the order in which they are shown. -/
  position : List String
  fields : SortedMap FieldWidget

namespace GroupLayout

instance : Wire GroupLayout where
  read? s := do
    let r ← s.record? ["display", "position", "fields"]
    return {
      display := ← r.withDefault? "display" ""
      position := ← r.withDefault? "position" []
      fields := ← r.withDefault? "fields" SortedMap.empty }
  write g := .object
    (Json.member "display" g.display ++ Json.member "position" g.position
      ++ Json.member "fields" g.fields)

/-- How a field of the group is shown. -/
def widgetOf (g : GroupLayout) (field : String) : FieldWidget :=
  (g.fields.get? field).getD FieldWidget.plain

end GroupLayout

/-- The groups of a configuration and the order in which they are shown. -/
structure Layout where
  position : List String
  groups : SortedMap GroupLayout

namespace Layout

/-- The layout without groups. -/
def empty : Layout := ⟨[], SortedMap.empty⟩

instance : Wire Layout where
  read? s := do
    let (r, others) ← s.openRecord? ["position"]
    let groups : List (String × GroupLayout) ← Wire.readValues? others
    return {
      position := ← r.withDefault? "position" []
      groups := SortedMap.ofList groups }
  write l := .object
    (Json.member "position" l.position ++ l.groups.entries.map fun e => (e.1, write e.2))

/-- The groups that are shown, with their names: those of the order that are defined. -/
def shown (l : Layout) : List (String × GroupLayout) :=
  l.position.filterMap fun name => (l.groups.get? name).map fun g => (name, g)

end Layout

/-- What the editor of a stored schema offers. -/
structure TypeOptions where
  /-- The offered types; if there are none, the general ones are offered. -/
  types : List String
  /-- The type of a first column. -/
  defaultType : Option String
  /-- The property whose value may imply a schema. -/
  watched : Option String
  deriving DecidableEq, Repr

namespace TypeOptions

instance : Wire TypeOptions where
  read? s := do
    let r ← s.record? ["schema-types", "schema-default-type", "property-watch"]
    return {
      types := ← r.withDefault? "schema-types" []
      defaultType := ← r.optional? "schema-default-type"
      watched := ← r.optional? "property-watch" }
  write o := .object
    (Json.member "schema-types" o.types ++ Json.memberIfSome "schema-default-type" o.defaultType
      ++ Json.memberIfSome "property-watch" o.watched)

end TypeOptions

/-- How a plugin declares its output schema. -/
inductive SchemaDeclaration where
  /-- The plugin fixes the fields: names and raw types. -/
  | implicit (fields : OrderedMap Json)
  /-- The schema is stored in the node property that comes first. -/
  | explicit (properties : OrderedMap TypeOptions)

namespace SchemaDeclaration

/-- Reads an object with a member `implicit`, whatever else it has. -/
def readImplicit? : Source → Option SchemaDeclaration
  | .object members => do
    let r ← (Source.object members).objectRecord? ["implicit"]
    return .implicit (← r.required? "implicit")
  | _ => none

/-- A declaration is implicit if it reads as one, and otherwise a map of properties.  Both
readings start from the whole declaration, so all of it must be readable. -/
instance : Wire SchemaDeclaration where
  read? s :=
    if s.readable then
      match readImplicit? s with
      | some d => some d
      | none => (read? s : Option (OrderedMap TypeOptions)).map .explicit
    else none
  write
    | implicit fields => .object (Json.member "implicit" fields)
    | explicit properties => write properties

/-- The property that stores an explicit schema, with what its editor offers. -/
def stored? : SchemaDeclaration → Option (String × TypeOptions)
  | implicit _ => none
  | explicit properties => properties.first?

/-- The fields of an implicit schema. -/
def implicitFields? : SchemaDeclaration → Option (OrderedMap Json)
  | implicit fields => some fields
  | explicit _ => none

end SchemaDeclaration

/-- The widget configuration of a plugin. -/
structure WidgetConfig where
  layout : Layout
  schema : Option SchemaDeclaration

namespace WidgetConfig

/-- The configuration that says nothing. -/
def empty : WidgetConfig := ⟨Layout.empty, none⟩

instance : Wire WidgetConfig where
  read? s := do
    let r ← s.record? ["groups", "outputschema"]
    return {
      layout := ← r.withDefault? "groups" Layout.empty
      schema := ← r.optional? "outputschema" }
  write c := .object
    (Json.member "groups" c.layout ++ Json.memberIfSome "outputschema" c.schema)

/-- The property that stores the plugin's schema, with what its editor offers. -/
def stored? (c : WidgetConfig) : Option (String × TypeOptions) :=
  c.schema.bind SchemaDeclaration.stored?

/-- The fields of the plugin's implicit schema. -/
def implicitFields? (c : WidgetConfig) : Option (OrderedMap Json) :=
  c.schema.bind SchemaDeclaration.implicitFields?

end WidgetConfig

end PipelineEditor
