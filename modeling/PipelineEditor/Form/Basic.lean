import PipelineEditor.Source.Record

/-!
# Forms: the fields of a node as the editor shows them

A form has groups of fields, in the order in which they are shown, and says for every field how
it is shown.  Besides, it carries the default values to be written into empty properties, and
names the property that stores the output schema, which is edited elsewhere.

* `ShownField`, `FieldGroup`, `SchemaSlot`, `DefaultPatch`, `Form` — the parts of a form;
* `DefaultPatch.apply` — **writing the default values**, and whether anything changed;
* `Form.fieldNames`, `Form.group?` — all fields in order; a group by its name.
-/

namespace PipelineEditor

/-- A field and how it is shown. -/
structure ShownField where
  widget : String
  label : String
  info : String
  description : String
  properties : SortedMap Json
  attributes : SortedMap Json

namespace ShownField

instance : Wire ShownField where
  read? s := do
    let r ← s.record? ["widget", "label", "info", "description", "properties", "attributes"]
    return {
      widget := ← r.required? "widget"
      label := ← r.required? "label"
      info := ← r.required? "info"
      description := ← r.required? "description"
      properties := ← r.withDefault? "properties" SortedMap.empty
      attributes := ← r.withDefault? "attributes" SortedMap.empty }
  write f := .object
    (Json.member "widget" f.widget ++ Json.member "label" f.label ++ Json.member "info" f.info
      ++ Json.member "description" f.description
      ++ Json.memberIfNonempty "properties" f.properties
      ++ Json.memberIfNonempty "attributes" f.attributes)

end ShownField

/-- A group of fields as it is shown. -/
structure FieldGroup where
  name : String
  display : String
  position : List String
  fields : SortedMap ShownField

namespace FieldGroup

instance : Wire FieldGroup where
  read? s := do
    let r ← s.record? ["name", "display", "position", "fields"]
    return {
      name := ← r.required? "name"
      display := ← r.required? "display"
      position := ← r.required? "position"
      fields := ← r.required? "fields" }
  write g := .object
    (Json.member "name" g.name ++ Json.member "display" g.display
      ++ Json.member "position" g.position ++ Json.member "fields" g.fields)

end FieldGroup

/-- The property that stores an explicit output schema. -/
structure SchemaSlot where
  key : String
  /-- Whether the backend declares the property at all. -/
  declared : Bool
  required : Bool
  deriving DecidableEq, Repr

namespace SchemaSlot

instance : Wire SchemaSlot where
  read? s := do
    let r ← s.record? ["key", "exists", "required"]
    return {
      key := ← r.required? "key"
      declared := ← r.required? "exists"
      required := ← r.required? "required" }
  write p := .object
    (Json.member "key" p.key ++ Json.member "exists" p.declared
      ++ Json.member "required" p.required)

end SchemaSlot

/-- Values to be written into properties. -/
structure DefaultPatch where
  set : SortedMap String
  deriving DecidableEq

namespace DefaultPatch

/-- The patch that writes nothing. -/
def empty : DefaultPatch := ⟨SortedMap.empty⟩

instance : Wire DefaultPatch where
  read? s := do
    let r ← s.record? ["set"]
    return { set := ← r.required? "set" }
  write p := .object (Json.member "set" p.set)

/-- Whether the patch writes nothing. -/
def isEmpty (p : DefaultPatch) : Bool := p.set.isEmpty

/-- The patch that writes the pairs, the last value of a key counting. -/
def ofPairs (pairs : List (String × String)) : DefaultPatch := ⟨SortedMap.ofList pairs⟩

/-- Writes one value; the flag records whether any write so far changed something. -/
def write (state : SortedMap String × Bool) (entry : String × String) : SortedMap String × Bool :=
  if state.1.get? entry.1 = some entry.2 then state else (state.1.insert entry.1 entry.2, true)

/-- Writes the values, and says whether anything changed. -/
def apply (p : DefaultPatch) (properties : SortedMap String) : SortedMap String × Bool :=
  p.set.entries.foldl write (properties, false)

end DefaultPatch

/-- The fields of a node as the editor shows them. -/
structure Form where
  groups : List FieldGroup
  patch : DefaultPatch
  slot : Option SchemaSlot

namespace Form

instance : Wire Form where
  read? s := do
    let r ← s.record? ["groups", "patch", "output_schema"]
    return {
      groups := ← r.required? "groups"
      patch := ← r.required? "patch"
      slot := ← r.optional? "output_schema" }
  write f := .object
    (Json.member "groups" f.groups ++ Json.member "patch" f.patch
      ++ Json.memberIfSome "output_schema" f.slot)

/-- The names of all fields, in the order in which they are shown. -/
def fieldNames (f : Form) : List String := f.groups.flatMap FieldGroup.position

/-- The first group with a name. -/
def group? (f : Form) (name : String) : Option FieldGroup :=
  f.groups.find? fun g => g.name = name

end Form

end PipelineEditor
