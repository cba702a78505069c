import PipelineEditor.Source.Record

/-!
# Embedded schemas and the values that imply them

Some formats fix the schema of a stream: a stream in common log format always has the fields of
that format.  The schemas of two formats are embedded, each with fields of scalar types that may
be null, laid out one field to a line.  Which values of a watched property imply which schema is
configurable.

* `EmbeddedSchema`, `embedded?` — the embedded schemas by their ids;
* `ImpliedSchemas` — **the map from a watched value to the id of the schema it implies**;
* `ImpliedSchemas.schemaText?` — the text of the implied schema, if its id is an embedded one.
-/

namespace PipelineEditor

/-- A schema that comes with the program: an id, and fields with the names of their types. -/
structure EmbeddedSchema where
  id : String
  fields : List (String × String)

namespace EmbeddedSchema

/-- The line of a field, without indentation and comma. -/
def fieldText (field : String × String) : String :=
  "\x7b \"name\": \"" ++ field.1 ++ "\", \"type\": [\"" ++ field.2 ++ "\", \"null\"] \x7d"

/-- The text of a schema, laid out with one field to a line. -/
def text (s : EmbeddedSchema) : String :=
  "\x7b\n  \"type\": \"record\",\n  \"name\": \"etlSchemaBody\",\n  \"fields\": [\n    "
    ++ String.intercalate ",\n    " (s.fields.map fieldText)
    ++ "\n  ]\n\x7d\n"

/-- Common log format: the fields of a line of a web server's log. -/
def commonLog : EmbeddedSchema where
  id := "clf"
  fields := [("remote_host", "string"), ("remote_login", "string"), ("auth_user", "string"),
    ("date", "string"), ("request", "string"), ("status", "int"), ("content_length", "int"),
    ("referrer", "string"), ("user_agent", "string")]

/-- The fields of a system log message. -/
def systemLog : EmbeddedSchema where
  id := "syslog"
  fields := [("timestamp", "string"), ("logsource", "string"), ("program", "string"),
    ("message", "string"), ("pid", "string")]

/-- The embedded schemas, in the order of their ids. -/
def all : List EmbeddedSchema := [commonLog, systemLog]

/-- The ids of the embedded schemas. -/
def ids : List String := all.map EmbeddedSchema.id

/-- The text of the embedded schema with an id, if there is one. -/
def textOf? (id : String) : Option String :=
  (all.find? fun s => s.id = id).map text

end EmbeddedSchema

/-- The ids of the schemas that values of a watched property imply. -/
structure ImpliedSchemas where
  ids : SortedMap String
  deriving DecidableEq

namespace ImpliedSchemas

instance : Wire ImpliedSchemas where
  read? s := (read? s : Option (SortedMap String)).map ImpliedSchemas.mk
  write m := write m.ids

/-- The map that sends the first of each pair to the second, the last pair of a value counting. -/
def ofPairs (pairs : List (String × String)) : ImpliedSchemas := ⟨SortedMap.ofList pairs⟩

/-- Every embedded schema is implied by its own id unless configured otherwise. -/
def standard : ImpliedSchemas := ofPairs (EmbeddedSchema.ids.map fun id => (id, id))

/-- The id that a watched value implies. -/
def id? (m : ImpliedSchemas) (value : String) : Option String := m.ids.get? value

/-- The text of the schema that a watched value implies. -/
def schemaText? (m : ImpliedSchemas) (value : String) : Option String :=
  (m.id? value).bind EmbeddedSchema.textOf?

end ImpliedSchemas

end PipelineEditor
