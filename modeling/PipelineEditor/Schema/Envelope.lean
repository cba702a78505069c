import PipelineEditor.Column.Row
import PipelineEditor.Json.Printer

/-!
# Record envelopes

The schema that is written back to a node is a record named `etlSchemaBody` around its fields.
A field type is a name, a map object, or a union of types; a nullable column becomes the union
of its type with `null`.

* `MapType`, `EnvelopeType`, `EnvelopeField`, `Envelope` — the parts of the written record;
* `Envelope.ofColumns?` — **the record of the columns that have a name**, none if no column has;
* `schemaText?` — its compact text.
-/

namespace PipelineEditor

/-- A map type inside a record. -/
structure MapType where
  kind : String
  keys : String
  values : String
  deriving DecidableEq, Repr

namespace MapType

instance : Wire MapType where
  read? s := do
    let r ← s.record? ["type", "keys", "values"]
    return {
      kind := ← r.required? "type"
      keys := ← r.required? "keys"
      values := ← r.required? "values" }
  write t := .object
    (Json.member "type" t.kind ++ Json.member "keys" t.keys ++ Json.member "values" t.values)

end MapType

/-- The type of a field inside a record. -/
inductive EnvelopeType where
  | named (name : String)
  | map (type : MapType)
  | union (members : List EnvelopeType)

namespace EnvelopeType

/-- The union of a type with `null`. -/
def nullable (type : EnvelopeType) : EnvelopeType := .union [type, .named "null"]

/-- How a column type is written inside a record. -/
def ofColumnType : ColumnType → EnvelopeType
  | .scalar name => .named name
  | .map keys values => .map ⟨"map", keys, values⟩

mutual
/-- Reads a readable tree: a text is a name, what reads as a map type is one, and any other
array is a union. -/
def ofSource? : Source → Option EnvelopeType
  | .string name => some (.named name)
  | .array elements =>
    match (read? (.array elements) : Option MapType) with
    | some t => some (.map t)
    | none => (allOfSource? elements).map .union
  | .object members => (read? (.object members) : Option MapType).map .map
  | .null => none
  | .bool _ => none
  | .number _ => none
  | .notFinite => none
  | .unreadable => none

/-- Reads the members of a union. -/
def allOfSource? : List Source → Option (List EnvelopeType)
  | [] => some []
  | s :: rest =>
    match ofSource? s, allOfSource? rest with
    | some t, some ts => some (t :: ts)
    | _, _ => none
end

mutual
/-- The JSON form of a type. -/
def toJson : EnvelopeType → Json
  | named name => .string name
  | map t => write t
  | union members => .array (allToJson members)

/-- The JSON forms of the members of a union. -/
def allToJson : List EnvelopeType → List Json
  | [] => []
  | t :: rest => t.toJson :: allToJson rest
end

instance : Wire EnvelopeType where
  read? s := if s.readable then ofSource? s else none
  write := toJson

end EnvelopeType

/-- A field inside a record. -/
structure EnvelopeField where
  name : String
  type : EnvelopeType

namespace EnvelopeField

instance : Wire EnvelopeField where
  read? s := do
    let r ← s.record? ["name", "type"]
    return { name := ← r.required? "name", type := ← r.required? "type" }
  write f := .object (Json.member "name" f.name ++ Json.member "type" f.type)

/-- How a column is written inside a record. -/
def ofColumn (c : Column) : EnvelopeField :=
  let type := EnvelopeType.ofColumnType c.type
  ⟨c.name, if c.nullable then type.nullable else type⟩

end EnvelopeField

/-- A record around the fields of a schema. -/
structure Envelope where
  kind : String
  name : String
  fields : List EnvelopeField

namespace Envelope

instance : Wire Envelope where
  read? s := do
    let r ← s.record? ["type", "name", "fields"]
    return {
      kind := ← r.required? "type"
      name := ← r.required? "name"
      fields := ← r.required? "fields" }
  write v := .object
    (Json.member "type" v.kind ++ Json.member "name" v.name ++ Json.member "fields" v.fields)

/-- The name that every written record has. -/
def recordName : String := "etlSchemaBody"

/-- The record around some fields. -/
def ofFields (fields : List EnvelopeField) : Envelope := ⟨"record", recordName, fields⟩

/-- The record of the columns that have a name, if there is one. -/
def ofColumns? (cs : List Column) : Option Envelope :=
  match (cs.filter fun c => c.name ≠ "").map EnvelopeField.ofColumn with
  | [] => none
  | fields => some (ofFields fields)

/-- The text of a record. -/
def text (v : Envelope) : String := (write v).compact

end Envelope

/-- The schema that editor rows are written as: blank rows and columns without a name are left
out, and nothing is written when nothing is left. -/
def schemaText? (rows : List EditorRow) : Option String :=
  (Envelope.ofColumns? (rows.filterMap EditorRow.column?)).map Envelope.text

end PipelineEditor
