import PipelineEditor.Schema.Embedded

/-!
# General settings of the schema editor

What applies to every plugin unless its configuration says otherwise: the offered types, the type
of a first column, and the property values that imply a schema.

* `Settings` — the three settings;
* `Settings.standard` — their values where nothing is configured.
-/

namespace PipelineEditor

/-- What applies to every plugin. -/
structure Settings where
  types : List String
  defaultType : String
  implied : ImpliedSchemas
  deriving DecidableEq

namespace Settings

/-- The settings where nothing is configured. -/
def standard : Settings where
  types := ["boolean", "int", "long", "float", "double", "bytes", "string", "map<string, string>"]
  defaultType := "string"
  implied := ImpliedSchemas.standard

instance : Wire Settings where
  read? s := do
    let r ← s.record? ["default-schema-types", "default-schema-type", "fixed-schemas"]
    return {
      types := ← r.withDefault? "default-schema-types" standard.types
      defaultType := ← r.withDefault? "default-schema-type" standard.defaultType
      implied := ← r.withDefault? "fixed-schemas" standard.implied }
  write g := .object
    (Json.member "default-schema-types" g.types
      ++ Json.member "default-schema-type" g.defaultType
      ++ Json.member "fixed-schemas" g.implied)

end Settings

end PipelineEditor
