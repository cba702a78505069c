import PipelineEditor.Proofs.Schema.Problems
import PipelineEditor.Proofs.Schema.WellFormed
import PipelineEditor.Proofs.Session.Implicit

/-!
# The schema that a plugin declares

When a configuration comes in which the plugin fixes the schema, the schema is written from the
declaration alone.  The editor that writes it has no plugin's options and watches no property, so
nothing can suppress it, and the column that it offers when there is none has no name and is not
written.  Hence two sessions with nothing else in common have the same schema after the same
declaration: a record of the entries that have a name and a readable type.  The keys of a
declaration are distinct, and so are the names of the fields, so the check that follows finds
nothing.

* `declaredField?` — **the field for an entry of a declaration**;
* `declaredFields_names` — the fields have the keys of their entries, in order;
* `declaredRecord`, `SchemaEditor.build?_declaredFields` — **the record of a declaration**, which an
  editor that watches nothing writes;
* `schema_loaded_declared`, `Step.declares` — the schema and the check after such a configuration;
* `implicit_schema_declared` — **the schema depends on the declaration only**.
-/

namespace PipelineEditor

/-! ## Declarations -/

/-- The field that a record has for a declared name and raw type: the type at the end of its path,
in a union with `null` if there is a union on the path.  Without a name, or when the type has no
shape, there is no field. -/
def declaredField? (entry : String × Json) : Option EnvelopeField :=
  if entry.1 = "" then none
  else
    match TypeShape.ofJson entry.2 with
    | .ok shape =>
      some (EnvelopeField.ofColumn ⟨entry.1, (shape.reduce false).1, (shape.reduce false).2⟩)
    | .error _ => none

theorem declaredField?_eq_none_iff (entry : String × Json) :
    declaredField? entry = none ↔
      entry.1 = "" ∨ ∃ fault, TypeShape.ofJson entry.2 = .error fault := by
  unfold declaredField?
  by_cases hname : entry.1 = ""
  · simp [hname]
  · cases TypeShape.ofJson entry.2 <;> simp [hname]

theorem declaredField?_name {entry : String × Json} {f : EnvelopeField}
    (h : declaredField? entry = some f) : f.name = entry.1 := by
  unfold declaredField? at h
  split at h
  · cases h
  · split at h
    · rw [← Option.some.inj h]
      rfl
    · cases h

/-- The field for an entry is written for its column, if that has a name. -/
theorem declaredField?_eq (entry : String × Json) :
    declaredField? entry =
      (((StoredField.mk entry.1 entry.2 false).column?).filter fun c => c.name ≠ "").map
        EnvelopeField.ofColumn := by
  unfold declaredField? StoredField.column? StoredField.columnAs?
  cases TypeShape.ofJson entry.2 with
  | error fault =>
    simp
  | ok shape =>
    by_cases hname : entry.1 = "" <;> simp [hname, Option.filter]

/-- The named columns of declared fields are written as the fields of the entries. -/
theorem namedColumns_declaredFields (declared : OrderedMap Json) :
    (namedColumns (columns (declaredFields declared))).map EnvelopeField.ofColumn =
      declared.entries.filterMap declaredField? := by
  rw [declaredFields, columns, namedColumns, List.filter_filterMap, List.map_filterMap,
    List.filterMap_map]
  exact congrArg (List.filterMap · _) (funext fun entry => (declaredField?_eq entry).symm)

/-- **The fields have the keys of their entries, in order**: none comes twice. -/
theorem declaredFields_names (declared : OrderedMap Json) :
    ((declared.entries.filterMap declaredField?).map EnvelopeField.name).Sublist declared.keys := by
  unfold OrderedMap.keys
  induction declared.entries with
  | nil => exact List.Sublist.refl _
  | cons entry rest ih =>
    rw [List.filterMap_cons, List.map_cons]
    cases hfield : declaredField? entry with
    | none => exact ih.cons _
    | some f =>
      rw [List.map_cons, declaredField?_name hfield]
      exact ih.cons_cons _

/-- The record of the fields of a declaration. -/
def declaredRecord (declared : OrderedMap Json) : Envelope :=
  Envelope.ofFields (declared.entries.filterMap declaredField?)

/-- The text of this record holds it. -/
theorem ofText?_declaredRecord (declared : OrderedMap Json) :
    Envelope.ofText? (declaredRecord declared).text = some (declaredRecord declared) := by
  rw [declaredRecord, ← namedColumns_declaredFields]
  exact Envelope.ofText?_ofColumns _

/-- The fields of a declaration are all missing exactly when every entry lacks a name or a type
with a shape. -/
theorem declaredFields_eq_nil_iff (declared : OrderedMap Json) :
    declared.entries.filterMap declaredField? = [] ↔
      ∀ entry ∈ declared.entries,
        entry.1 = "" ∨ ∃ fault, TypeShape.ofJson entry.2 = .error fault := by
  rw [List.filterMap_eq_nil_iff]
  exact forall₂_congr fun entry _ => declaredField?_eq_none_iff entry

/-! ## Editors that watch nothing -/

namespace SchemaEditor

variable {e : SchemaEditor} (h : e.watched = none) (properties : SortedMap String)

include h

/-- **An editor that watches nothing writes the record of a declaration**, if that has a field. -/
theorem build?_declaredFields (declared : OrderedMap Json) :
    e.build? (some (declaredFields declared)) properties =
      if declared.entries.filterMap declaredField? = [] then none
      else some (declaredRecord declared).text := by
  rw [build?_eq_of_unwatched h, schemaText?_eq, namedColumns_rows, Option.getD_some,
    declaredRecord, ← namedColumns_declaredFields]
  simp only [List.map_eq_nil_iff]

/-- The check of what it writes for a declaration finds nothing. -/
theorem problemMessages_build?_declaredFields (declared : OrderedMap Json) :
    problemMessages (e.build? (some (declaredFields declared)) properties) = [] := by
  have hnames : (namedColumns (columns (declaredFields declared))).map Column.name =
      (declared.entries.filterMap declaredField?).map EnvelopeField.name := by
    rw [← namedColumns_declaredFields, List.map_map]
    rfl
  rw [build?_eq_of_unwatched h, problemMessages_schemaText?, namedColumns_rows, Option.getD_some,
    hnames]
  exact declared.keys_nodup.sublist (declaredFields_names declared)

end SchemaEditor

namespace Session

/-! ## Configurations that declare the schema -/

/-- **The schema after a configuration in which the plugin fixes it**, whatever the session. -/
theorem schema_loaded_declared {s : Session} {config : WidgetConfig} {declared : OrderedMap Json}
    (h : config.implicitFields? = some declared) :
    (s.loaded config).node.schema =
      if declared.entries.filterMap declaredField? = [] then none
      else some (declaredRecord declared).text := by
  rw [schema_loaded h s.node.properties]
  exact SchemaEditor.build?_declaredFields rfl _ declared

/-- The check after such a configuration comes, and it finds nothing. -/
theorem Step.declares {s s' : Session} {config : WidgetConfig} {declared : OrderedMap Json}
    {events : List Event} (h : Step s (.configLoaded config) s' events)
    (hopen : s.closed = false) (hdeclares : s.node.declaresNothing = false)
    (hconfig : config.implicitFields? = some declared) :
    s.event (.schemaChecked []) ∈ events ∧
      ∀ e ∈ events, ∀ messages, e.change = .schemaChecked messages → messages = [] := by
  cases h with
  | ignored hclosed => exact absurd (hclosed.symm.trans hopen) (by decide)
  | kept _ hnothing => exact absurd (hnothing.symm.trans hdeclares) (by decide)
  | loaded _ _ =>
    have hcheck : problemMessages (s.loaded config).node.schema = [] := by
      rw [schema_loaded hconfig s.node.properties]
      exact SchemaEditor.problemMessages_build?_declaredFields rfl _ declared
    constructor
    · refine List.mem_cons_of_mem _ (mem_schemaEvents.mpr (.inr (.inr ?_)))
      rw [hcheck]
      rfl
    · intro e he messages hmessages
      rcases List.mem_cons.mp he with rfl | he
      · cases hmessages
      · rcases mem_schemaEvents.mp he with ⟨-, rfl⟩ | rfl | rfl
        · cases hmessages
        · cases hmessages
        · exact (Change.schemaChecked.inj hmessages).symm.trans hcheck

/-- **A schema that the plugin fixes depends on its declaration only.**  Let two open sessions, with
whatever nodes that have declared properties, settings and histories, take configurations with the
same declaration.  Then their nodes have the same schema.  There is none exactly when every entry of
the declaration lacks a name or a type with a shape, and otherwise it is the text of the record that
has a field for each other entry, in the order of the declaration.  The check of the schema is told,
and it finds nothing. -/
theorem implicit_schema_declared (s t : Session) (config other : WidgetConfig)
    (declared : OrderedMap Json)
    (hopen : s.closed = false) (hopenOther : t.closed = false)
    (hdeclares : s.node.declaresNothing = false) (hdeclaresOther : t.node.declaresNothing = false)
    (hconfig : config.implicitFields? = some declared)
    (hother : other.implicitFields? = some declared) :
    (s.handle (.configLoaded config)).1.node.schema
      = (t.handle (.configLoaded other)).1.node.schema ∧
    ((s.handle (.configLoaded config)).1.node.schema = none ↔
      ∀ entry ∈ declared.entries,
        entry.1 = "" ∨ ∃ fault, TypeShape.ofJson entry.2 = .error fault) ∧
    (∀ text, (s.handle (.configLoaded config)).1.node.schema = some text →
      text = (declaredRecord declared).text ∧
        Envelope.ofText? text = some (declaredRecord declared)) ∧
    s.event (.schemaChecked []) ∈ (s.handle (.configLoaded config)).2 ∧
    ∀ e ∈ (s.handle (.configLoaded config)).2, ∀ messages,
      e.change = .schemaChecked messages → messages = [] := by
  obtain ⟨hchecked, hclean⟩ :=
    (step_handle s (.configLoaded config)).declares hopen hdeclares hconfig
  rw [handle_configLoaded hopen hdeclares, handle_configLoaded hopenOther hdeclaresOther,
    schema_loaded_declared hconfig, schema_loaded_declared hother, ← declaredFields_eq_nil_iff]
  refine ⟨rfl, ?_, ?_, hchecked, hclean⟩
  · split
    next hnone => exact iff_of_true rfl hnone
    next hsome => exact iff_of_false nofun hsome
  · intro text htext
    split at htext
    · cases htext
    · rw [← Option.some.inj htext]
      exact ⟨rfl, ofText?_declaredRecord declared⟩

/-- A declaration with a text, an entry without a name, one without a type, and a nullable number. -/
def mixedDeclaration : OrderedMap Json :=
  ⟨[("body", .string "string"), ("", .string "long"), ("x", .null),
    ("n", .array [.string "int", .string "null"])], by decide⟩

/-- A stream whose format implies a schema, and a node that comes with a schema and no format, are
given the same record of the text and the number. -/
theorem implicit_schema_declared_mixed :
    let s := (streamSession.run [.configLoaded streamConfig, .setProperty "format" "clf"]).1
    let t := new streamSession.id { streamNode with schema := some "x", properties := .empty }
      { Settings.standard with defaultType := "int" }
    let declares (layout : Layout) : Operation :=
      .configLoaded ⟨layout, some (.implicit mixedDeclaration)⟩
    (s.handle (declares .empty)).1.node.schema
        = (t.handle (declares streamConfig.layout)).1.node.schema ∧
      (s.handle (declares .empty)).1.node.schema ≠ none ∧
      declaredRecord mixedDeclaration = Envelope.ofFields
        [⟨"body", .named "string"⟩, ⟨"n", .union [.named "int", .named "null"]⟩] ∧
      s.event (.schemaChecked []) ∈ (s.handle (declares .empty)).2 := by
  intro s t declares
  have h := implicit_schema_declared s t ⟨.empty, some (.implicit mixedDeclaration)⟩
    ⟨streamConfig.layout, some (.implicit mixedDeclaration)⟩ mixedDeclaration rfl rfl rfl rfl rfl rfl
  refine ⟨h.1, ?_, rfl, h.2.2.2.1⟩
  intro hnone
  rcases h.2.1.mp hnone ("body", .string "string") List.mem_cons_self with hname | ⟨fault, hfault⟩
  · exact absurd hname (by decide)
  · cases hfault

end Session

end PipelineEditor
