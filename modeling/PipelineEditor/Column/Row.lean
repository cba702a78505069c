import PipelineEditor.Column.Type

/-!
# Columns and the rows of the schema editor

A column has a name, a type and a flag that says whether its values may be null.  The editor
shows columns in rows, and keeps some rows blank so that there is always a slot to fill in; a
blank row is written as an object whose one member `empty` is true.

* `Column`, `EditorRow` — a column; a column or a blank row;
* `EditorView` — **what the editor is given to show**: rows, offered types, type of a new row.
-/

namespace PipelineEditor

/-- An entry of an output schema. -/
structure Column where
  name : String
  type : ColumnType
  nullable : Bool
  deriving DecidableEq, Repr

namespace Column

instance : Wire Column where
  read? s := do
    let r ← s.record? ["name", "type", "nullable"]
    return {
      name := ← r.required? "name"
      type := ← r.required? "type"
      nullable := ← r.withDefault? "nullable" false }
  write c := .object
    (Json.member "name" c.name ++ Json.member "type" c.type ++ Json.member "nullable" c.nullable)

end Column

/-- A row of the schema editor. -/
inductive EditorRow where
  | column (c : Column)
  | blank
  deriving DecidableEq, Repr

namespace EditorRow

/-- The column of a row, unless the row is blank. -/
def column? : EditorRow → Option Column
  | column c => some c
  | blank => none

/-- Whether a row is blank. -/
def isBlank : EditorRow → Bool
  | column _ => false
  | blank => true

/-- Reads a record whose member `empty` is true. -/
def readBlank? (s : Source) : Option EditorRow := do
  let r ← s.record? ["empty"]
  let empty : Bool ← r.required? "empty"
  if empty then some blank else none

/-- A row is a column if it reads as one, and otherwise a blank row.  Both readings start from
the whole row, so all of it must be readable. -/
instance : Wire EditorRow where
  read? s :=
    if s.readable then
      match (read? s : Option Column) with
      | some c => some (column c)
      | none => readBlank? s
    else none
  write
    | column c => write c
    | blank => .object (Json.member "empty" true)

end EditorRow

/-- What the schema editor is given to show. -/
structure EditorView where
  rows : List EditorRow
  /-- The types that the editor offers. -/
  options : List String
  /-- The type of a new row. -/
  defaultType : String
  deriving DecidableEq, Repr

namespace EditorView

instance : Wire EditorView where
  read? s := do
    let r ← s.record? ["rows", "options", "defaultType"]
    return {
      rows := ← r.required? "rows"
      options := ← r.required? "options"
      defaultType := ← r.required? "defaultType" }
  write v := .object
    (Json.member "rows" v.rows ++ Json.member "options" v.options
      ++ Json.member "defaultType" v.defaultType)

end EditorView

end PipelineEditor
