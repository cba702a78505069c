import PipelineEditor.Proofs.Wire.Messages

/-!
# What was read comes back

Every type that is read from outside and written to the outside comes back, whatever spelling its
values were read from: records given as arrays, members in any order, members that are missing or
that nobody knows, repeated keys, types and identifiers in any of their forms.  The values are
compared as they are, so that maps which keep an order come back in that order.  Types without raw
JSON and without type names come back also when their values were never read.

* `written_values_come_back` — **nodes, descriptors, schemas, forms, events and operations come
  back**.  An operation that carries a configuration is left out: a configuration may be misread.
-/

namespace PipelineEditor

open Wire

/-- **Values come back from their written form**: all nodes, listings, options, settings and
patches, and whatever was read of the other types. -/
theorem written_values_come_back :
    (∀ n : Node, ComesBack n) ∧ (∀ p : PluginListing, ComesBack p) ∧
    (∀ o : TypeOptions, ComesBack o) ∧ (∀ g : Settings, ComesBack g) ∧
    (∀ p : DefaultPatch, ComesBack p) ∧
    RoundTrips FieldWidget ∧ RoundTrips GroupLayout ∧ RoundTrips Layout ∧
    RoundTrips EditorRow ∧ RoundTrips EditorView ∧
    RoundTrips StoredSchema ∧ RoundTrips Envelope ∧ RoundTrips Form ∧ RoundTrips Event ∧
    ∀ (s : Source) (op : Operation), read? s = some op → (∀ c, op ≠ .configLoaded c) →
      ComesBack op :=
  ⟨Exact.comesBack, Exact.comesBack, Exact.comesBack, Exact.comesBack, Exact.comesBack,
    Lawful.roundTrips FieldWidget, Lawful.roundTrips GroupLayout, Lawful.roundTrips Layout,
    Lawful.roundTrips EditorRow, Lawful.roundTrips EditorView, Lawful.roundTrips StoredSchema,
    Lawful.roundTrips Envelope, Lawful.roundTrips Form, Lawful.roundTrips Event,
    fun _ _ h hconfig => (Operation.readsBack_of_read? h hconfig).comesBack⟩

/-- A record in arrays, with a map type of three texts, a union of two and a union of three that
are not all texts. -/
def arrayEnvelope : Source :=
  .array [.string "record", .string "etlSchemaBody", .array [
    .array [.string "headers", .array [.string "map", .string "string", .string "int"]],
    .object [(.text "type", .array [.string "long", .string "null"]), (.text "name", .string "ts")],
    .array [.string "body", .array [.string "int", .array [], .string "null"]]]]

/-- What it is read as. -/
def arrayEnvelopeValue : Envelope where
  kind := "record"
  name := "etlSchemaBody"
  fields := [
    ⟨"headers", .map ⟨"map", "string", "int"⟩⟩,
    ⟨"ts", .union [.named "long", .named "null"]⟩,
    ⟨"body", .union [.named "int", .union [], .named "null"]⟩]

/-- An edit with its payload first, and a map type with blanks and a second comma. -/
def payloadFirst : Source :=
  .object [
    (.text "payload", .object [(.text "rows", .array [
      .array [.string "headers", .string " map< string ,int,long > ", .bool true],
      .object [(.text "name", .null), (.text "empty", .bool true)]])]),
    (.text "type", .string "editSchema")]

/-- What it is read as. -/
def payloadFirstValue : Operation :=
  .editSchema [.column ⟨"headers", .map "string" "int,long", true⟩, .blank]

/-- Both come back, the record with its types and the edit with its rows. -/
theorem written_values_come_back_spelled :
    read? arrayEnvelope = some arrayEnvelopeValue ∧ ComesBack arrayEnvelopeValue ∧
      read? payloadFirst = some payloadFirstValue ∧ ComesBack payloadFirstValue := by
  obtain ⟨-, -, -, -, -, -, -, -, -, -, -, henvelope, -, -, hoperation⟩ := written_values_come_back
  have hrecord : read? arrayEnvelope = some arrayEnvelopeValue := rfl
  have hedit : read? payloadFirst = some payloadFirstValue := rfl
  exact ⟨hrecord, henvelope _ _ hrecord, hedit, hoperation _ _ hedit nofun⟩

end PipelineEditor
