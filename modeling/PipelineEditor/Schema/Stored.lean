import PipelineEditor.Json.Parser
import PipelineEditor.Source.Record
import PipelineEditor.Schema.TypeShape
import PipelineEditor.Column.Row

/-!
# Stored schemas

A node keeps its output schema as a text.  Of the record that the text holds only the list of
fields is read, each with its name, its type as raw JSON and a nullable flag, and everything in
it may be missing.  A text that does not read as such a record is no schema at all.

* `StoredField`, `StoredSchema` — the fields as found, before their types are looked at;
* `storedFields?` — **the fields of a stored text, if it reads as a schema**;
* `StoredField.column?` — the column that a field is shown as, if its type has a shape;
* `columns` — the columns of a list of fields, the unreadable ones left out.
-/

namespace PipelineEditor

/-- A field of a stored schema. -/
structure StoredField where
  name : String
  type : Json
  nullable : Bool

namespace StoredField

instance : Wire StoredField where
  read? s := do
    let r ← s.record? ["name", "type", "nullable"]
    return {
      name := ← r.withDefault? "name" ""
      type := ← r.withDefault? "type" Json.null
      nullable := ← r.withDefault? "nullable" false }
  write f := .object
    (Json.member "name" f.name ++ Json.member "type" f.type ++ Json.member "nullable" f.nullable)

/-- The column that a field is shown as when `nullable` is its own flag. -/
def columnAs? (f : StoredField) (nullable : Bool) : Option Column :=
  match TypeShape.ofJson f.type with
  | .ok shape =>
    let (type, nullable) := shape.reduce nullable
    some ⟨f.name, type, nullable⟩
  | .error _ => none

/-- The column that a field is shown as. -/
def column? (f : StoredField) : Option Column := f.columnAs? f.nullable

end StoredField

/-- The columns of a list of fields; fields with a faulty type are left out. -/
def columns (fields : List StoredField) : List Column := fields.filterMap StoredField.column?

/-- A stored schema, of which only the fields are read. -/
structure StoredSchema where
  fields : List StoredField

namespace StoredSchema

instance : Wire StoredSchema where
  read? s := do
    let r ← s.record? ["fields"]
    return { fields := ← r.withDefault? "fields" [] }
  write v := .object (Json.member "fields" v.fields)

end StoredSchema

/-- The fields of a stored text, if there is a text and it reads as a schema. -/
def storedFields? (text : Option String) : Option (List StoredField) := do
  let source ← Source.parse? (← text)
  let schema : StoredSchema ← read? source
  return schema.fields

/-- The fields of an implicit declaration: its names and types in order, none of them nullable
by a flag of its own. -/
def declaredFields (declared : OrderedMap Json) : List StoredField :=
  declared.entries.map fun e => ⟨e.1, e.2, false⟩

end PipelineEditor
