import PipelineEditor.Form.Arrange
import PipelineEditor.Schema.Duplicates
import PipelineEditor.Schema.Editor
import PipelineEditor.Session.Message

/-!
# Edit sessions

A session owns a node while it is being edited.  It takes operations one at a time and answers
each with the events that it causes.  Once the widget configuration has come, the session knows
which property stores the output schema; from then on the schema and that property are kept the
same.  After it is closed, a session ignores everything.

* `Session` — the node, the settings, the configuration held, the schema's property;
* `Session.storeSchema` — **writing the schema, and its copy in the property**;
* `Session.handle` — one operation: the next state and the events;
* `Session.run` — a sequence of operations;
* `Session.editorView?` — what the schema editor shows in a state.
-/

namespace PipelineEditor

/-- The state of one edit session. -/
structure Session where
  id : SessionId
  node : Node
  settings : Settings
  /-- The configuration that came last. -/
  config : Option WidgetConfig
  /-- The property that stores the output schema. -/
  slot : Option SchemaSlot
  closed : Bool

namespace Session

/-- A session before any operation. -/
def new (id : SessionId) (node : Node) (settings : Settings) : Session :=
  ⟨id, node, settings, none, none, false⟩

/-! ## Looking at a state -/

/-- What the held configuration offers for the stored schema. -/
def typeOptions? (s : Session) : Option TypeOptions :=
  (s.config.bind WidgetConfig.stored?).map Prod.snd

/-- The schema editor under the held configuration. -/
def editor (s : Session) : SchemaEditor := SchemaEditor.of s.typeOptions? s.settings

/-- The key of the property that holds a copy of the schema. -/
def schemaKey? (s : Session) : Option String :=
  match s.slot with
  | some slot => if slot.declared then some slot.key else none
  | none => none

/-- What the schema editor shows; nothing when the plugin or the watched property fixes the
schema. -/
def editorView? (s : Session) : Option EditorView :=
  if s.node.implicit then none
  else s.editor.view? (storedFields? s.node.schema) s.node.properties

/-! ## Events -/

/-- A change in this session. -/
def event (s : Session) (change : Change) : Event := ⟨s.id, change⟩

/-- The event that tells the properties. -/
def propertiesEvent (s : Session) : Event := s.event (.propertiesChanged s.node.properties)

/-- The events after a schema was written; the properties are told if they changed. -/
def schemaEvents (s : Session) (propertiesChanged : Bool) : List Event :=
  (if propertiesChanged then [s.propertiesEvent] else [])
    ++ [s.event (.schemaChanged s.node.schema),
        s.event (.schemaChecked (problemMessages s.node.schema))]

/-! ## Writing the schema -/

/-- Gives a property a value, or takes it away. -/
def setOrErase (properties : SortedMap String) (key : String) : Option String → SortedMap String
  | some value => properties.insert key value
  | none => properties.erase key

/-- Writes the schema to the node, and to the property that holds its copy.  The flag says
whether the properties changed. -/
def storeSchema (s : Session) (schema : Option String) : Session × Bool :=
  match s.schemaKey? with
  | some key =>
    if s.node.properties.get? key = schema then
      ({ s with node := { s.node with schema := schema } }, false)
    else
      ({ s with node := { s.node with
          schema := schema
          properties := setOrErase s.node.properties key schema } }, true)
  | none => ({ s with node := { s.node with schema := schema } }, false)

/-- The schema that the stored fields are written as under the held configuration. -/
def rebuilt? (s : Session) : Option String :=
  s.editor.build? (storedFields? s.node.schema) s.node.properties

/-! ## Operations -/

/-- The configuration has come for a plugin that declares properties. -/
def arrangeWith (s : Session) (config : WidgetConfig) : Session × List Event :=
  let form := Form.arrange s.node config
  let (properties, patched) := form.patch.apply s.node.properties
  let s := { s with
    node := { s.node with properties := properties }
    config := some config
    slot := form.slot }
  let s := if config.implicitFields?.isSome then
      { s with node := { s.node with implicit := true } } else s
  let schema := match config.implicitFields? with
    | some declared =>
      (SchemaEditor.of none s.settings).build? (some (declaredFields declared)) properties
    | none => s.rebuilt?
  let (s, stored) := s.storeSchema schema
  (s, s.event (.groupsArranged form.groups) :: s.schemaEvents (patched || stored))

/-- The configuration has come.  For a plugin without properties it is only kept. -/
def loadConfig (s : Session) (config : WidgetConfig) : Session × List Event :=
  if s.node.declaresNothing then
    ({ s with config := some config }, [s.event (.groupsArranged [])])
  else s.arrangeWith config

/-- There is no configuration. -/
def lackConfig (s : Session) (reason : FallbackReason) : Session × List Event :=
  (s, [s.event (.groupsArranged (Form.plain s.node).groups),
       s.event (.configUnavailable reason.message)])

/-- The user changed a property.  A value for the schema's property is a schema; a value for the
watched property may suppress the schema or bring it back. -/
def setProperty (s : Session) (key value : String) : Session × List Event :=
  if s.schemaKey? = some key then
    let (s, changed) := s.storeSchema (some value)
    (s, s.schemaEvents changed)
  else
    let watched := s.editor.watched = some key
    let s := { s with node := { s.node with properties := s.node.properties.insert key value } }
    if watched ∧ s.node.implicit = false then
      let (s, _) := s.storeSchema s.rebuilt?
      (s, s.schemaEvents true)
    else (s, [s.propertiesEvent])

/-- The user edited the rows of the schema. -/
def editSchema (s : Session) (rows : List EditorRow) : Session × List Event :=
  if s.node.implicit then (s, [])
  else
    let schema := if s.editor.suppressed s.node.properties then none else schemaText? rows
    let (s, changed) := s.storeSchema schema
    (s, s.schemaEvents changed)

/-- The user cleared the schema. -/
def clearSchema (s : Session) : Session × List Event :=
  let (s, changed) := s.storeSchema none
  (s, s.schemaEvents changed)

/-- One operation: the next state and the events.  A closed session ignores everything. -/
def handle (s : Session) (op : Operation) : Session × List Event :=
  if s.closed then (s, [])
  else
    match op with
    | .configLoaded config => s.loadConfig config
    | .configUnavailable reason => s.lackConfig reason
    | .setProperty key value => s.setProperty key value
    | .editSchema rows => s.editSchema rows
    | .clearSchema => s.clearSchema
    | .close => ({ s with closed := true }, [s.event .sessionClosed])

/-- A sequence of operations: the last state and all events in order. -/
def run (s : Session) : List Operation → Session × List Event
  | [] => (s, [])
  | op :: rest =>
    let (s, events) := s.handle op
    let (s, more) := s.run rest
    (s, events ++ more)

/-- A session that starts with what was fetched for the node's plugin. -/
def openWith (id : SessionId) (node : Node) (settings : Settings)
    (fetched : Except FallbackReason WidgetConfig) : Session × List Event :=
  (new id node settings).handle <|
    match fetched with
    | .ok config => .configLoaded config
    | .error reason => .configUnavailable reason

end Session

end PipelineEditor
