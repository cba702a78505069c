import PipelineEditor.Proofs.Session.Id
import PipelineEditor.Proofs.Wire.Descriptors
import PipelineEditor.Proofs.Wire.Schemas
import PipelineEditor.Session.Message

/-!
# Reading back forms and messages

A form holds fields whose settings are raw JSON, and an event that shows groups holds a part of a
form.  All other events, and the operations that carry no configuration, hold texts, rows and
identifiers.  A message is found by its type, so what is left to show is that the parts of its
payload are found again; most events have one part beside the session, and share one argument.

* `ShownField`, `FieldGroup`, `Form` — the values that were read are read back;
* `Wire.ReadsBack.of_tagged` — **a message is read back when the parts of its payload are found
  again**;
* `Operation.readsBack_configLoaded` — an operation with a configuration, if that is read back;
* `Operation.readsBack_of_read?`, `Event.readsBack_of_groups` — **the other operations and all
  events**.
-/

namespace PipelineEditor

open Wire
open Json hiding ReadsBack

/-! ## Forms -/

namespace ShownField

theorem readsBack_of_maps {f : ShownField} (hproperties : ReadsBack f.properties)
    (hattributes : ReadsBack f.attributes) : ReadsBack f := by
  refine ReadsBack.of_record rfl (fun _ => rfl) (by decide) ?declared ?parts
  case declared =>
    exact .append (.append (.append (.append (.append declared_member declared_member)
      declared_member) declared_member) declared_memberIfNonempty) declared_memberIfNonempty
  case parts =>
    simp [List.lookup_append, elim_nonempty hproperties, elim_nonempty hattributes]

instance : Lawful ShownField where
  readsBack {s f} h := by
    obtain ⟨r, -, h⟩ := Option.bind_eq_some_iff.mp h
    obtain ⟨widget, -, h⟩ := Option.bind_eq_some_iff.mp h
    obtain ⟨label, -, h⟩ := Option.bind_eq_some_iff.mp h
    obtain ⟨info, -, h⟩ := Option.bind_eq_some_iff.mp h
    obtain ⟨description, -, h⟩ := Option.bind_eq_some_iff.mp h
    obtain ⟨properties, hproperties, h⟩ := Option.bind_eq_some_iff.mp h
    obtain ⟨attributes, hattributes, h⟩ := Option.bind_eq_some_iff.mp h
    cases h
    exact readsBack_of_maps (readsBack_of_withDefault? readsBack_empty hproperties)
      (readsBack_of_withDefault? readsBack_empty hattributes)

end ShownField

namespace FieldGroup

theorem readsBack_of_fields {g : FieldGroup} (hfields : ReadsBack g.fields) : ReadsBack g := by
  refine ReadsBack.of_record rfl (fun _ => rfl) (by decide) ?declared ?parts
  case declared =>
    exact .append (.append (.append declared_member declared_member) declared_member)
      declared_member
  case parts => simp [List.lookup_append, hfields.read?_eq]

instance : Lawful FieldGroup where
  readsBack {s g} h := by
    obtain ⟨r, -, h⟩ := Option.bind_eq_some_iff.mp h
    obtain ⟨name, -, h⟩ := Option.bind_eq_some_iff.mp h
    obtain ⟨display, -, h⟩ := Option.bind_eq_some_iff.mp h
    obtain ⟨position, -, h⟩ := Option.bind_eq_some_iff.mp h
    obtain ⟨fields, hfields, h⟩ := Option.bind_eq_some_iff.mp h
    cases h
    exact readsBack_of_fields (readsBack_of_required? hfields)

end FieldGroup

instance : Exact SchemaSlot where
  readsBack p := by
    refine ReadsBack.of_record rfl (fun _ => rfl) (by decide) ?declared ?parts
    case declared => exact .append (.append declared_member declared_member) declared_member
    case parts => simp [List.lookup_append]

instance : Exact DefaultPatch where
  readsBack p := by
    refine ReadsBack.of_record rfl (fun _ => rfl) (by decide) declared_member ?parts
    case parts => simp

namespace Form

theorem readsBack_of_groups {f : Form} (hgroups : ReadsBack f.groups) : ReadsBack f := by
  have hslot : f.slot.elim (some none) (readNullable? ∘ write) = some f.slot :=
    elim_readNullable? (fun p _ => Exact.readsBack p) rfl
  refine ReadsBack.of_record rfl (fun _ => rfl) (by decide) ?declared ?parts
  case declared => exact .append (.append declared_member declared_member) declared_memberIfSome
  case parts => simp [List.lookup_append, hgroups.read?_eq, hslot]

instance : Lawful Form where
  readsBack {s f} h := by
    obtain ⟨r, -, h⟩ := Option.bind_eq_some_iff.mp h
    obtain ⟨groups, hgroups, h⟩ := Option.bind_eq_some_iff.mp h
    obtain ⟨patch, -, h⟩ := Option.bind_eq_some_iff.mp h
    obtain ⟨slot, -, h⟩ := Option.bind_eq_some_iff.mp h
    cases h
    exact readsBack_of_groups (readsBack_of_required? hgroups)

end Form

/-! ## Messages -/

namespace Wire

variable {α : Type} [Wire α] {v : α}

/-- **A message is read back when the parts of its payload are found again.** -/
theorem ReadsBack.of_tagged {ofTagged? : String → Option Source → Option α} {type : String}
    {names : List String} {payload : List (String × Json)} {parts : Record → Option α}
    (hread : ∀ s : Source, read? s = s.tagged?.bind fun m => ofTagged? m.1 m.2)
    (htype : ∀ p, ofTagged? type p = (Source.payload? names p).bind parts)
    (hwrite : write v = Json.tagged type payload) (hnames : names.Nodup)
    (hpayload : Json.Declared names payload) (hparts : parts (Json.asRecord payload) = some v) :
    ReadsBack v := by
  have htagged : (Json.tagged type payload).toSource.tagged? =
      some (type, some (Json.object payload).toSource) := rfl
  have hrecord : Source.payload? names (some (Json.object payload).toSource) =
      some (Json.asRecord payload) := Source.objectRecord?_object hnames hpayload
  rw [ReadsBack, hwrite, hread, htagged, Option.bind_some, htype, hrecord, Option.bind_some, hparts]

end Wire

namespace Operation

theorem readsBack_configLoaded {c : WidgetConfig} (h : ReadsBack c) :
    ReadsBack (configLoaded c) := by
  refine ReadsBack.of_tagged (fun _ => rfl) (fun _ => rfl) rfl (by decide) declared_member ?parts
  case parts => simp [h.read?_eq]

theorem readsBack_configUnavailable (reason : FallbackReason) :
    ReadsBack (configUnavailable reason) := by
  refine ReadsBack.of_tagged (fun _ => rfl) (fun _ => rfl) rfl (by decide) declared_member ?parts
  case parts => simp

theorem readsBack_setProperty (key value : String) : ReadsBack (setProperty key value) := by
  refine ReadsBack.of_tagged (fun _ => rfl) (fun _ => rfl) rfl (by decide)
    (.append declared_member declared_member) ?parts
  case parts => simp [List.lookup_append]

theorem readsBack_editSchema {rows : List EditorRow} (h : ReadsBack rows) :
    ReadsBack (editSchema rows) := by
  refine ReadsBack.of_tagged (fun _ => rfl) (fun _ => rfl) rfl (by decide) declared_member ?parts
  case parts => simp [h.read?_eq]

theorem readsBack_clearSchema : ReadsBack clearSchema := rfl

theorem readsBack_close : ReadsBack close := rfl

/-- **An operation that was read is read back**, if it carries no configuration. -/
theorem readsBack_of_read? {s : Source} {op : Operation} (h : read? s = some op)
    (hconfig : ∀ c, op ≠ configLoaded c) : ReadsBack op := by
  obtain ⟨⟨type, payload⟩, -, h⟩ := Option.bind_eq_some_iff.mp h
  simp only [ofTagged?] at h
  split at h
  · obtain ⟨r, -, h⟩ := Option.bind_eq_some_iff.mp h
    obtain ⟨c, -, h⟩ := Option.bind_eq_some_iff.mp h
    cases h
    exact absurd rfl (hconfig c)
  split at h
  · obtain ⟨r, -, h⟩ := Option.bind_eq_some_iff.mp h
    obtain ⟨reason, -, h⟩ := Option.bind_eq_some_iff.mp h
    cases h
    exact readsBack_configUnavailable reason
  split at h
  · obtain ⟨r, -, h⟩ := Option.bind_eq_some_iff.mp h
    obtain ⟨key, -, h⟩ := Option.bind_eq_some_iff.mp h
    obtain ⟨value, -, h⟩ := Option.bind_eq_some_iff.mp h
    cases h
    exact readsBack_setProperty key value
  split at h
  · obtain ⟨r, -, h⟩ := Option.bind_eq_some_iff.mp h
    obtain ⟨rows, hrows, h⟩ := Option.bind_eq_some_iff.mp h
    cases h
    exact readsBack_editSchema (readsBack_of_required? hrows)
  split at h
  · obtain ⟨-, h⟩ := Option.ite_none_right_eq_some.mp h
    cases h
    exact readsBack_clearSchema
  split at h
  · obtain ⟨-, h⟩ := Option.ite_none_right_eq_some.mp h
    cases h
    exact readsBack_close
  · cases h

end Operation

namespace Event

/-- The events that tell one thing about their session are read back when that thing is. -/
theorem readsBack_of_part {β : Type} [Wire β] {type name : String} {tell : β → Change} {part : β}
    (id : SessionId)
    (htype : ∀ p, ofTagged? type p = (Source.payload? [sessionMember, name] p).bind fun r => do
      return ⟨← r.required? sessionMember, tell (← r.required? name)⟩)
    (hwrite : ∀ session, writeChange session (tell part) =
      Json.tagged type ((sessionMember, session) :: member name part))
    (hname : name ≠ sessionMember) (hpart : ReadsBack part) :
    ReadsBack (Event.mk id (tell part)) := by
  have hpayload : write (Event.mk id (tell part)) =
      Json.tagged type (member sessionMember id ++ member name part) := hwrite (write id)
  refine ReadsBack.of_tagged (fun _ => rfl) htype hpayload ?names
    (.append declared_member declared_member) ?parts
  case names => simp [Ne.symm hname]
  case parts => simp [List.lookup_append, hname, hpart.read?_eq]

/-- The schema of a session is written as null when there is none. -/
theorem readsBack_schemaChanged (id : SessionId) (schema : Option String) :
    ReadsBack (Event.mk id (.schemaChanged schema)) := by
  have hwrite : write (Event.mk id (.schemaChanged schema)) = Json.tagged "outputSchemaChanged"
      (member sessionMember id ++ memberOrNull "schema" schema) := rfl
  refine ReadsBack.of_tagged (fun _ => rfl) (fun _ => rfl) hwrite (by decide)
    (.append declared_member declared_memberOrNull) ?parts
  case parts => simp [sessionMember, List.lookup_append]

theorem readsBack_sessionClosed (id : SessionId) : ReadsBack (Event.mk id .sessionClosed) := by
  have hwrite : write (Event.mk id .sessionClosed) =
      Json.tagged "sessionClosed" (member sessionMember id) := rfl
  refine ReadsBack.of_tagged (fun _ => rfl) (fun _ => rfl) hwrite (by decide) declared_member ?parts
  case parts => simp

/-- An event is read back when the groups that it tells about are. -/
theorem readsBack_of_groups {e : Event} (h : ∀ groups, e.change = .groupsArranged groups →
    ReadsBack groups) : ReadsBack e := by
  obtain ⟨id, change⟩ := e
  cases change with
  | groupsArranged groups =>
    exact readsBack_of_part id (fun _ => rfl) (fun _ => rfl) (by decide) (h groups rfl)
  | configUnavailable message =>
    exact readsBack_of_part id (fun _ => rfl) (fun _ => rfl) (by decide) (Exact.readsBack message)
  | propertiesChanged properties =>
    exact readsBack_of_part id (fun _ => rfl) (fun _ => rfl) (by decide)
      (Exact.readsBack properties)
  | schemaChanged schema => exact readsBack_schemaChanged id schema
  | schemaChecked problems =>
    exact readsBack_of_part id (fun _ => rfl) (fun _ => rfl) (by decide) (Exact.readsBack problems)
  | sessionClosed => exact readsBack_sessionClosed id

instance : Lawful Event where
  readsBack {s e} h := by
    obtain ⟨⟨type, payload⟩, -, h⟩ := Option.bind_eq_some_iff.mp h
    refine readsBack_of_groups fun groups hgroups => ?_
    simp only [ofTagged?] at h
    split at h
    · obtain ⟨r, -, h⟩ := Option.bind_eq_some_iff.mp h
      obtain ⟨id, -, h⟩ := Option.bind_eq_some_iff.mp h
      obtain ⟨others, hothers, h⟩ := Option.bind_eq_some_iff.mp h
      cases h
      cases hgroups
      exact readsBack_of_required? hothers
    split at h
    · obtain ⟨r, -, h⟩ := Option.bind_eq_some_iff.mp h
      obtain ⟨id, -, h⟩ := Option.bind_eq_some_iff.mp h
      obtain ⟨message, -, h⟩ := Option.bind_eq_some_iff.mp h
      cases h
      cases hgroups
    split at h
    · obtain ⟨r, -, h⟩ := Option.bind_eq_some_iff.mp h
      obtain ⟨id, -, h⟩ := Option.bind_eq_some_iff.mp h
      obtain ⟨properties, -, h⟩ := Option.bind_eq_some_iff.mp h
      cases h
      cases hgroups
    split at h
    · obtain ⟨r, -, h⟩ := Option.bind_eq_some_iff.mp h
      obtain ⟨id, -, h⟩ := Option.bind_eq_some_iff.mp h
      obtain ⟨schema, -, h⟩ := Option.bind_eq_some_iff.mp h
      cases h
      cases hgroups
    split at h
    · obtain ⟨r, -, h⟩ := Option.bind_eq_some_iff.mp h
      obtain ⟨id, -, h⟩ := Option.bind_eq_some_iff.mp h
      obtain ⟨problems, -, h⟩ := Option.bind_eq_some_iff.mp h
      cases h
      cases hgroups
    split at h
    · obtain ⟨r, -, h⟩ := Option.bind_eq_some_iff.mp h
      obtain ⟨id, -, h⟩ := Option.bind_eq_some_iff.mp h
      cases h
      cases hgroups
    · cases h

end Event

end PipelineEditor
