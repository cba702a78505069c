import PipelineEditor.Source.Record

/-!
# What a backend declares about a plugin

The backend lists the properties that a plugin accepts, in an order of its own, each with a
description and whether it must be given.

* `PropertyDeclaration`, `Declarations` — one declared property; all of them in order;
* `PluginListing` — an entry of the backend's answer about a plugin.
-/

namespace PipelineEditor

/-- A property that a plugin accepts. -/
structure PropertyDeclaration where
  name : String
  description : String
  required : Bool
  /-- The declared type of the property's values, if the backend gives one. -/
  type : Option String
  deriving DecidableEq, Repr

namespace PropertyDeclaration

instance : Wire PropertyDeclaration where
  read? s := do
    let r ← s.record? ["name", "description", "required", "type"]
    return {
      name := ← r.withDefault? "name" ""
      description := ← r.withDefault? "description" ""
      required := ← r.withDefault? "required" false
      type := ← r.optional? "type" }
  write d := .object
    (Json.member "name" d.name ++ Json.member "description" d.description
      ++ Json.member "required" d.required ++ Json.memberIfSome "type" d.type)

end PropertyDeclaration

/-- The declared properties under their names, in the order of declaration. -/
abbrev Declarations : Type := OrderedMap PropertyDeclaration

/-- An entry of the backend's answer about a plugin. -/
structure PluginListing where
  name : String
  description : String
  type : String
  className : Option String
  properties : Declarations

namespace PluginListing

instance : Wire PluginListing where
  read? s := do
    let r ← s.record? ["name", "description", "type", "className", "properties"]
    return {
      name := ← r.required? "name"
      description := ← r.withDefault? "description" ""
      type := ← r.withDefault? "type" ""
      className := ← r.optional? "className"
      properties := ← r.withDefault? "properties" OrderedMap.empty }
  write p := .object
    (Json.member "name" p.name ++ Json.member "description" p.description
      ++ Json.member "type" p.type ++ Json.memberOrNull "className" p.className
      ++ Json.member "properties" p.properties)

end PluginListing

end PipelineEditor
