import PipelineEditor.Form.Basic
import PipelineEditor.Json.Printer
import PipelineEditor.Node
import PipelineEditor.Plugin.Widget

/-!
# Arranging declared properties into a form

The backend decides which properties exist, the widget configuration how they are grouped and
shown.  The groups are filled one after the other, each taking the properties that it lists and
that are still pending; what no group takes is collected in a last group named `generic`.  The
property that stores the output schema is taken out beforehand.  Arranging changes nothing: the
default values for empty properties are collected in a patch.

* `takeFields`, `placements` — **every pending property goes to the first group that lists it**;
* `ShownField.resolve`, `ShownField.unlisted` — how a field is shown: what its widget says, then
  what the backend says, then a fixed text; and how it is shown when no group lists it;
* `defaultText?` — the text of a default value, none for null, false, zero and the empty text;
* `Form.arrange`, `Form.plain` — the form with and without a configuration.
-/

namespace PipelineEditor

/-! ## Placing fields in groups -/

/-- The pending fields among those listed, in the order of the list, and what stays pending. -/
def takeFields : List String → List String → List String × List String
  | [], pending => ([], pending)
  | field :: rest, pending =>
    if field ∈ pending then
      let (taken, left) := takeFields rest (pending.erase field)
      (field :: taken, left)
    else takeFields rest pending

/-- A group with the fields that it takes. -/
structure Placement where
  name : String
  layout : GroupLayout
  fields : List String

/-- Fills the groups one after the other. -/
def placements : List (String × GroupLayout) → List String → List Placement × List String
  | [], pending => ([], pending)
  | (name, layout) :: rest, pending =>
    let (taken, left) := takeFields layout.position pending
    let (more, left) := placements rest left
    (⟨name, layout, taken⟩ :: more, left)

/-! ## Showing a field -/

/-- A text, unless it is missing or empty. -/
def nonempty? (text : Option String) : Option String := text.filter (· ≠ "")

/-- The description that the backend gives for a field. -/
def Declarations.description (declarations : Declarations) (field : String) : String :=
  (nonempty? ((declarations.get? field).map PropertyDeclaration.description)).getD
    "No Description Available"

/-- How a field is shown. -/
def ShownField.resolve (declarations : Declarations) (field : String) (w : FieldWidget) :
    ShownField where
  widget := w.widget.getD "textbox"
  label := w.label.getD field
  info := w.info.getD "Info"
  description := (nonempty? w.description).getD (Declarations.description declarations field)
  properties := w.properties
  attributes := w.attributes

/-- How a field is shown that no group lists. -/
def ShownField.unlisted (declarations : Declarations) (field : String) : ShownField where
  widget := "textbox"
  label := field
  info := "Info"
  description := Declarations.description declarations field
  properties := SortedMap.empty
  attributes := SortedMap.empty

/-! ## Default values -/

/-- The text that a default value is written as; null, false, zero and the empty text are no
default values. -/
def defaultText? : Json → Option String
  | .null => none
  | .bool false => none
  | .string s => if s = "" then none else some s
  | .number n => if n.isZero then none else some (Json.number n).compact
  | j => some j.compact

/-- The default value that a field gets in a group: its property is there and empty. -/
def GroupLayout.defaultFor? (g : GroupLayout) (properties : SortedMap String) (field : String) :
    Option (String × String) :=
  match (g.widgetOf field).default?.bind defaultText? with
  | some value => if properties.get? field = some "" then some (field, value) else none
  | none => none

/-! ## Forms -/

namespace Placement

/-- The group as it is shown. -/
def group (p : Placement) (declarations : Declarations) : FieldGroup where
  name := p.name
  display := p.layout.display
  position := p.fields
  fields := SortedMap.ofList
    (p.fields.map fun f => (f, ShownField.resolve declarations f (p.layout.widgetOf f)))

/-- The default values of the group's fields. -/
def defaults (p : Placement) (properties : SortedMap String) : List (String × String) :=
  p.fields.filterMap (p.layout.defaultFor? properties)

end Placement

/-- The group of the fields that no other group takes, if there are any. -/
def genericGroup? (declarations : Declarations) (pending : List String) : Option FieldGroup :=
  match pending with
  | [] => none
  | fields => some {
      name := "generic"
      display := "Generic"
      position := fields
      fields := SortedMap.ofList
        (fields.map fun f => (f, ShownField.unlisted declarations f)) }

namespace Form

/-- The slot of the property that stores the schema of a plugin. -/
def slotFor (declarations : Declarations) (key : String) : SchemaSlot where
  key := key
  declared := declarations.contains key
  required := ((declarations.get? key).map PropertyDeclaration.required).getD false

/-- The properties to be placed in groups: all declared ones but the one of the slot. -/
def pendingFields (declarations : Declarations) (slot : Option SchemaSlot) : List String :=
  match slot with
  | some s => declarations.keys.erase s.key
  | none => declarations.keys

/-- The form of a node under a widget configuration. -/
def arrange (n : Node) (config : WidgetConfig) : Form :=
  let slot := config.stored?.map fun stored => slotFor n.declarations stored.1
  let (placed, left) := placements config.layout.shown (pendingFields n.declarations slot)
  { groups := placed.map (·.group n.declarations) ++ (genericGroup? n.declarations left).toList
    patch := DefaultPatch.ofPairs (placed.flatMap (·.defaults n.properties))
    slot := slot }

/-- The form of a node without a configuration: everything is in the last group. -/
def plain (n : Node) : Form where
  groups := (genericGroup? n.declarations n.declarations.keys).toList
  patch := DefaultPatch.empty
  slot := none

end Form

end PipelineEditor
