import PipelineEditor.Plugin.Widget
import PipelineEditor.Schema.Envelope
import PipelineEditor.Schema.Settings
import PipelineEditor.Schema.Stored

/-!
# The editor of an output schema

A plugin's configuration and the general settings together decide what its schema editor offers
and which property is watched.  While the watched property has a value that implies a schema, the
editor is suppressed: there is nothing to edit and no schema is written.

* `SchemaEditor`, `SchemaEditor.of` — what an editor offers, and where it comes from;
* `SchemaEditor.rows` — **the rows of an editor**: the columns, a first column when there is
  none, and blank rows up to fifteen, or a single one after fifteen or more columns;
* `SchemaEditor.build?` — the text that the rows are written as, unless suppressed;
* `SchemaEditor.view?` — what the editor shows, unless suppressed.
-/

namespace PipelineEditor

/-- What the schema editor of a plugin offers. -/
structure SchemaEditor where
  options : List String
  /-- The type of a first column. -/
  defaultType : String
  /-- The property whose value may imply a schema. -/
  watched : Option String
  implied : ImpliedSchemas

namespace SchemaEditor

/-- The number of rows that an editor has at least. -/
def leastRows : Nat := 15

/-- The editor that a plugin's options and the general settings give.  A configured default type
comes before the first configured type, and that before the general default type. -/
def of (options : Option TypeOptions) (settings : Settings) : SchemaEditor :=
  let configured := (options.map TypeOptions.types).getD []
  { options := if configured.isEmpty then settings.types else configured
    defaultType :=
      ((options.bind TypeOptions.defaultType).orElse fun _ => configured.head?).getD
        settings.defaultType
    watched := options.bind TypeOptions.watched
    implied := settings.implied }

/-- The unnamed column that is offered when a schema has none. -/
def firstColumn (e : SchemaEditor) : Column := ⟨"", ColumnType.ofName e.defaultType, false⟩

/-- The rows for some columns. -/
def rowsOf (e : SchemaEditor) (cs : List Column) : List EditorRow :=
  if cs.length < leastRows then
    let filled := if cs.isEmpty then [e.firstColumn] else cs
    filled.map .column ++ List.replicate (leastRows - filled.length) .blank
  else cs.map .column ++ [.blank]

/-- The rows for the fields of a schema, or for no schema. -/
def rows (e : SchemaEditor) (fields : Option (List StoredField)) : List EditorRow :=
  e.rowsOf (columns (fields.getD []))

/-- Whether the watched property implies a schema. -/
def suppressed (e : SchemaEditor) (properties : SortedMap String) : Bool :=
  match e.watched.bind properties.get? with
  | some value => (e.implied.id? value).isSome
  | none => false

/-- The text that the fields of a schema are written as. -/
def build? (e : SchemaEditor) (fields : Option (List StoredField))
    (properties : SortedMap String) : Option String :=
  if e.suppressed properties then none else schemaText? (e.rows fields)

/-- What the editor shows. -/
def view? (e : SchemaEditor) (fields : Option (List StoredField))
    (properties : SortedMap String) : Option EditorView :=
  if e.suppressed properties then none else some ⟨e.rows fields, e.options, e.defaultType⟩

end SchemaEditor

end PipelineEditor
