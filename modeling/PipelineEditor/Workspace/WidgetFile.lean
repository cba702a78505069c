import PipelineEditor.Json.Parser
import PipelineEditor.Plugin.Widget
import PipelineEditor.Workspace.Fault
import PipelineEditor.Workspace.Path
import PipelineEditor.Yaml.Value

/-!
# Widget files

A widget file holds the configuration of one plugin, in JSON or in YAML.  Reading it has two
stages, so that a text that is not well formed is told apart from one with the wrong structure.
Which texts are well formed is up to the parsers of the formats, which are given.

YAML leaves blanks: an empty document is the empty configuration, and a layout without content
is the empty layout.  Its tags are passed over where a configuration says what kind of value stands
there, and refused where the kind is open.

* `WidgetFormat` — the two formats, and the one that a path asks for;
* `Parsers` — **the parsers of the formats**, and the ones of this library;
* `Yaml.Value.filled?` — a YAML value with its blanks filled in;
* `WidgetConfig.parse` — **the configuration that a text holds, or what is wrong with it**;
* `WidgetConfig.ofText` — the same by the parsers of this library.
-/

namespace PipelineEditor

/-- The formats of widget files. -/
inductive WidgetFormat where
  | json
  | yaml
  deriving DecidableEq, Repr

namespace WidgetFormat

/-- The format of the file at a path: JSON has its extension, everything else counts as YAML. -/
def ofPath (path : String) : WidgetFormat :=
  if Path.extension? path = some "json" then json else yaml

end WidgetFormat

/-- The parsers of the two formats: the value of a text, if the text is well formed. -/
structure Parsers where
  json : String → Option Json
  yaml : String → Option Yaml.Value

/-- The parsers of this library. -/
def Parsers.standard : Parsers := ⟨Json.parse?, Yaml.Value.parse?⟩

namespace Yaml.Value

/-- The order of a layout.  Tags do not count in it, and null is the empty order. -/
def positionSource (v : Value) : Source :=
  match v.untagged with
  | null => .array []
  | sequence entries => .array (entries.map fun entry => entry.untagged.toSource)
  | other => other.toSource

/-- A member of a layout. -/
def layoutMember (e : Value × Value) : MemberName × Source :=
  match e.1.untagged with
  | string "position" => (.text "position", e.2.positionSource)
  | key => (key.memberName, e.2.toSource)

/-- A layout.  A tag in front of it does not count, and null is the empty layout. -/
def layoutSource (v : Value) : Source :=
  match v.untagged with
  | null => .object []
  | mapping entries => .object (entries.map layoutMember)
  | other => other.toSource

/-- A member of a configuration. -/
def configMember (e : Value × Value) : MemberName × Source :=
  match e.1.untagged with
  | string "groups" => (.text "groups", e.2.layoutSource)
  | key => (key.memberName, e.2.toSource)

/-- A value as the source of a configuration: a mapping with texts for keys, or null, with its
blanks filled in. -/
def filled? (v : Value) : Option Source :=
  match v.untagged with
  | null => some (.object [])
  | mapping entries =>
    let members := entries.map configMember
    if (Source.namedMembers? members).isSome then some (.object members) else none
  | _ => none

end Yaml.Value

namespace WidgetConfig

section

variable (parsers : Parsers)

/-- The configuration that a JSON text holds. -/
def ofJson (text : String) : Except LoadCause WidgetConfig :=
  match parsers.json text with
  | none => .error .malformedJson
  | some j =>
    match read? j.toSource with
    | some config => .ok config
    | none => .error .misshapen

/-- The configuration that a YAML text holds. -/
def ofYaml (text : String) : Except LoadCause WidgetConfig :=
  match parsers.yaml text with
  | none => .error .malformedYaml
  | some v =>
    match v.filled?.bind read? with
    | some config => .ok config
    | none => .error .misshapen

/-- The configuration that the text of the file at a path holds. -/
def parse (path text : String) : Except LoadFault WidgetConfig :=
  (match WidgetFormat.ofPath path with
    | .json => ofJson parsers text
    | .yaml => ofYaml parsers text).mapError fun cause => ⟨path, cause⟩

end

/-- The configuration that the text of the file at a path holds, read by the parsers of this
library. -/
def ofText (path text : String) : Except LoadFault WidgetConfig := parse .standard path text

end WidgetConfig

end PipelineEditor
