import PipelineEditor.Column.Row
import PipelineEditor.Form.Basic
import PipelineEditor.Plugin.Fallback
import PipelineEditor.Plugin.Widget
import PipelineEditor.Session.Id

/-!
# Messages between a host and a session

The host sends operations: what it has fetched, and what the user has done.  The session answers
with events, each saying what has changed.  On the wire both are records of a type and a payload;
the payload may come first, but is then kept until the type is known, so that all of it must be
readable.

* `Operation`, `Change`, `Event` — what the host sends; what has changed; a change with the
  session it belongs to;
* `Source.tagged?` — **the type and the payload of a message**.
-/

namespace PipelineEditor

/-! ## Messages with a type and a payload -/

namespace Source

/-- The type and the payload, if one was given, of a message. -/
def tagged? : Source → Option (String × Option Source)
  | object members =>
    match knownMembers? ["type", "payload"] members with
    | some [("type", string type)] => some (type, none)
    | some [("type", string type), ("payload", payload)] => some (type, some payload)
    | some [("payload", payload), ("type", string type)] =>
      if payload.readable then some (type, some payload) else none
    | _ => none
  | array [string type, payload] => some (type, some payload)
  | _ => none

/-- The members of a payload, which is an object. -/
def payload? (names : List String) (payload : Option Source) : Option Record :=
  payload.bind (objectRecord? names)

/-- Whether a payload is missing or null, as it must be where there is nothing to say. -/
def noPayload : Option Source → Bool
  | none => true
  | some null => true
  | some _ => false

end Source

namespace Json

/-- A message with a payload. -/
def tagged (type : String) (payload : List (String × Json)) : Json :=
  .object [("type", .string type), ("payload", .object payload)]

/-- A message without a payload. -/
def tag (type : String) : Json := .object [("type", .string type)]

end Json

/-! ## Operations -/

/-- What a host sends to a session. -/
inductive Operation where
  | configLoaded (config : WidgetConfig)
  | configUnavailable (reason : FallbackReason)
  | setProperty (key value : String)
  | editSchema (rows : List EditorRow)
  | clearSchema
  | close

namespace Operation

/-- The operation with a type and a payload. -/
def ofTagged? (type : String) (payload : Option Source) : Option Operation :=
  if type = "configLoaded" then do
    let r ← Source.payload? ["config"] payload
    return .configLoaded (← r.required? "config")
  else if type = "configUnavailable" then do
    let r ← Source.payload? ["reason"] payload
    return .configUnavailable (← r.required? "reason")
  else if type = "setProperty" then do
    let r ← Source.payload? ["key", "value"] payload
    return .setProperty (← r.required? "key") (← r.required? "value")
  else if type = "editSchema" then do
    let r ← Source.payload? ["rows"] payload
    return .editSchema (← r.required? "rows")
  else if type = "clearSchema" then
    if Source.noPayload payload then some .clearSchema else none
  else if type = "close" then
    if Source.noPayload payload then some .close else none
  else none

instance : Wire Operation where
  read? s := s.tagged?.bind fun m => ofTagged? m.1 m.2
  write
    | configLoaded config => Json.tagged "configLoaded" (Json.member "config" config)
    | configUnavailable reason => Json.tagged "configUnavailable" (Json.member "reason" reason)
    | setProperty key value =>
      Json.tagged "setProperty" (Json.member "key" key ++ Json.member "value" value)
    | editSchema rows => Json.tagged "editSchema" (Json.member "rows" rows)
    | clearSchema => Json.tag "clearSchema"
    | close => Json.tag "close"

end Operation

/-! ## Events -/

/-- Something that has changed in a session. -/
inductive Change where
  | groupsArranged (groups : List FieldGroup)
  | configUnavailable (message : String)
  | propertiesChanged (properties : SortedMap String)
  | schemaChanged (schema : Option String)
  | schemaChecked (problems : List String)
  | sessionClosed

/-- A change and the session in which it happened. -/
structure Event where
  session : SessionId
  change : Change

namespace Event

/-- The member of every payload that names the session. -/
def sessionMember : String := "session_id"

/-- The change with a type and a payload, and its session. -/
def ofTagged? (type : String) (payload : Option Source) : Option Event :=
  if type = "groupsReconciled" then do
    let r ← Source.payload? [sessionMember, "groups"] payload
    return ⟨← r.required? sessionMember, .groupsArranged (← r.required? "groups")⟩
  else if type = "configUnavailable" then do
    let r ← Source.payload? [sessionMember, "message"] payload
    return ⟨← r.required? sessionMember, .configUnavailable (← r.required? "message")⟩
  else if type = "propertiesChanged" then do
    let r ← Source.payload? [sessionMember, "properties"] payload
    return ⟨← r.required? sessionMember, .propertiesChanged (← r.required? "properties")⟩
  else if type = "outputSchemaChanged" then do
    let r ← Source.payload? [sessionMember, "schema"] payload
    return ⟨← r.required? sessionMember, .schemaChanged (← r.optional? "schema")⟩
  else if type = "schemaValidated" then do
    let r ← Source.payload? [sessionMember, "errors"] payload
    return ⟨← r.required? sessionMember, .schemaChecked (← r.required? "errors")⟩
  else if type = "sessionClosed" then do
    let r ← Source.payload? [sessionMember] payload
    return ⟨← r.required? sessionMember, .sessionClosed⟩
  else none

/-- The written form of a change in the session that `session` writes. -/
def writeChange (session : Json) : Change → Json
  | .groupsArranged groups =>
    Json.tagged "groupsReconciled" ((sessionMember, session) :: Json.member "groups" groups)
  | .configUnavailable message =>
    Json.tagged "configUnavailable" ((sessionMember, session) :: Json.member "message" message)
  | .propertiesChanged properties =>
    Json.tagged "propertiesChanged"
      ((sessionMember, session) :: Json.member "properties" properties)
  | .schemaChanged schema =>
    Json.tagged "outputSchemaChanged"
      ((sessionMember, session) :: Json.memberOrNull "schema" schema)
  | .schemaChecked problems =>
    Json.tagged "schemaValidated" ((sessionMember, session) :: Json.member "errors" problems)
  | .sessionClosed => Json.tagged "sessionClosed" [(sessionMember, session)]

instance : Wire Event where
  read? s := s.tagged?.bind fun m => ofTagged? m.1 m.2
  write e := writeChange (write e.session) e.change

end Event

end PipelineEditor
