import PipelineEditor.Proofs.Schema.TypeName
import PipelineEditor.Proofs.Wire.Record
import PipelineEditor.Schema.Envelope
import PipelineEditor.Schema.Settings
import PipelineEditor.Schema.Stored

/-!
# Reading back schemas and rows

Three readings decide between forms without a mark that tells them apart.  A column type is a name
of a scalar type or of a map type.  A row is a column, or else a blank row.  A type inside a record
is a name, a map type, or a union; three texts in an array are a map type, so that a union that was
read is never one of three names, and its written form is no map type either.

* `ColumnType`, `Column`, `EditorRow`, `EditorView` — what the editor shows;
* `StoredField`, `StoredSchema`, `Settings` — what nodes and settings say;
* `EnvelopeType.ofSource?_toJson`, `EnvelopeField`, `Envelope` — **a written record is read back,
  whatever the unions in it**.
-/

namespace PipelineEditor

open Wire
open Json hiding ReadsBack

/-! ## What the editor shows -/

instance : Lawful ColumnType where
  readsBack {s t} h := by
    obtain ⟨name, -, rfl⟩ := Option.map_eq_some_iff.mp h
    exact congrArg some (ColumnType.ofName_name_ofName name)

namespace Column

theorem readsBack_of_type {c : Column} (htype : ReadsBack c.type) : ReadsBack c := by
  refine ReadsBack.of_record rfl (fun _ => rfl) (by decide) ?declared ?parts
  case declared => exact .append (.append declared_member declared_member) declared_member
  case parts => simp [List.lookup_append, htype.read?_eq]

instance : Lawful Column where
  readsBack {s c} h := by
    obtain ⟨r, -, h⟩ := Option.bind_eq_some_iff.mp h
    obtain ⟨name, -, h⟩ := Option.bind_eq_some_iff.mp h
    obtain ⟨type, htype, h⟩ := Option.bind_eq_some_iff.mp h
    obtain ⟨nullable, -, h⟩ := Option.bind_eq_some_iff.mp h
    cases h
    exact readsBack_of_type (readsBack_of_required? htype)

end Column

namespace EditorRow

theorem readsBack_column {c : Column} (h : ReadsBack c) : ReadsBack (column c) := by
  have hcolumn : (read? (write (column c)).toSource : Option Column) = some c := h
  show (if (write (column c)).toSource.readable then _ else none) = some (column c)
  rw [if_pos (Json.readable_toSource _), hcolumn]

/-- A blank row is no column, because it has no name. -/
theorem readsBack_blank : ReadsBack blank := rfl

instance : Lawful EditorRow where
  readsBack {s row} h := by
    cases row with
    | blank => exact readsBack_blank
    | column c =>
      obtain ⟨-, h⟩ := Option.ite_none_right_eq_some.mp h
      split at h
      next d hcolumn =>
        cases h
        exact readsBack_column (Lawful.readsBack hcolumn)
      next =>
        obtain ⟨r, -, h⟩ := Option.bind_eq_some_iff.mp h
        obtain ⟨empty, -, h⟩ := Option.bind_eq_some_iff.mp h
        cases empty <;> cases h

end EditorRow

namespace EditorView

theorem readsBack_of_rows {v : EditorView} (hrows : ReadsBack v.rows) : ReadsBack v := by
  refine ReadsBack.of_record rfl (fun _ => rfl) (by decide) ?declared ?parts
  case declared => exact .append (.append declared_member declared_member) declared_member
  case parts => simp [List.lookup_append, hrows.read?_eq]

instance : Lawful EditorView where
  readsBack {s v} h := by
    obtain ⟨r, -, h⟩ := Option.bind_eq_some_iff.mp h
    obtain ⟨rows, hrows, h⟩ := Option.bind_eq_some_iff.mp h
    obtain ⟨options, -, h⟩ := Option.bind_eq_some_iff.mp h
    obtain ⟨defaultType, -, h⟩ := Option.bind_eq_some_iff.mp h
    cases h
    exact readsBack_of_rows (readsBack_of_required? hrows)

end EditorView

/-! ## What nodes and settings say -/

namespace StoredField

theorem readsBack_of_type {f : StoredField} (htype : ReadsBack f.type) : ReadsBack f := by
  refine ReadsBack.of_record rfl (fun _ => rfl) (by decide) ?declared ?parts
  case declared => exact .append (.append declared_member declared_member) declared_member
  case parts => simp [List.lookup_append, htype.read?_eq]

instance : Lawful StoredField where
  readsBack {s f} h := by
    obtain ⟨r, -, h⟩ := Option.bind_eq_some_iff.mp h
    obtain ⟨name, -, h⟩ := Option.bind_eq_some_iff.mp h
    obtain ⟨type, htype, h⟩ := Option.bind_eq_some_iff.mp h
    obtain ⟨nullable, -, h⟩ := Option.bind_eq_some_iff.mp h
    cases h
    have hnull : ReadsBack Json.null := rfl
    exact readsBack_of_type (readsBack_of_withDefault? hnull htype)

end StoredField

namespace StoredSchema

theorem readsBack_of_fields {v : StoredSchema} (hfields : ReadsBack v.fields) : ReadsBack v := by
  refine ReadsBack.of_record rfl (fun _ => rfl) (by decide) declared_member ?parts
  case parts => simp [hfields.read?_eq]

instance : Lawful StoredSchema where
  readsBack {s v} h := by
    obtain ⟨r, -, h⟩ := Option.bind_eq_some_iff.mp h
    obtain ⟨fields, hfields, h⟩ := Option.bind_eq_some_iff.mp h
    cases h
    have hnone : ReadsBack ([] : List StoredField) := rfl
    exact readsBack_of_fields (readsBack_of_withDefault? hnone hfields)

end StoredSchema

instance : Exact ImpliedSchemas := ⟨fun m => congrArg (Option.map _) (Exact.readsBack m.ids)⟩

instance : Exact Settings where
  readsBack g := by
    refine ReadsBack.of_record rfl (fun _ => rfl) (by decide) ?declared ?parts
    case declared => exact .append (.append declared_member declared_member) declared_member
    case parts => simp [List.lookup_append]

/-! ## Records -/

instance : Exact MapType where
  readsBack t := by
    refine ReadsBack.of_record rfl (fun _ => rfl) (by decide) ?declared ?parts
    case declared => exact .append (.append declared_member declared_member) declared_member
    case parts => simp [List.lookup_append]

namespace EnvelopeType

theorem eq_of_read?_string {s : Source} {text : String} (h : read? s = some text) :
    s = .string text := by
  cases s with
  | string other => cases h; rfl
  | _ => cases h

/-- A map type that is given by an array is given by three texts. -/
theorem eq_of_read?_array {elements : List Source} {t : MapType}
    (h : read? (.array elements) = some t) :
    elements = [.string t.kind, .string t.keys, .string t.values] := by
  obtain ⟨r, hr, h⟩ := Option.bind_eq_some_iff.mp h
  obtain ⟨kind, hkind, h⟩ := Option.bind_eq_some_iff.mp h
  obtain ⟨keys, hkeys, h⟩ := Option.bind_eq_some_iff.mp h
  obtain ⟨values, hvalues, h⟩ := Option.bind_eq_some_iff.mp h
  cases h
  match elements with
  | [] | [_] | [_, _] =>
    cases hr
    cases hvalues
  | [a, b, c] =>
    cases hr
    rw [eq_of_read?_string hkind, eq_of_read?_string hkeys, eq_of_read?_string hvalues]
  | _ :: _ :: _ :: _ :: rest => cases hr

/-- What is read as a name is a text. -/
theorem eq_of_ofSource?_named {s : Source} {name : String} (h : ofSource? s = some (.named name)) :
    s = .string name := by
  cases s with
  | string text => cases h; rfl
  | array elements =>
    rw [ofSource?] at h
    split at h
    · cases h
    · obtain ⟨members, -, h⟩ := Option.map_eq_some_iff.mp h
      cases h
  | object members =>
    rw [ofSource?] at h
    obtain ⟨t, -, h⟩ := Option.map_eq_some_iff.mp h
    cases h
  | _ => cases h

theorem eq_of_allOfSource?_named {elements : List Source} {names : List String}
    (h : allOfSource? elements = some (names.map named)) : elements = names.map .string := by
  induction elements generalizing names with
  | nil =>
    cases names with
    | nil => rfl
    | cons name names => cases h
  | cons s rest ih =>
    rw [allOfSource?] at h
    split at h
    next t ts hs hrest =>
      cases names with
      | nil => cases h
      | cons name names =>
        obtain ⟨rfl, rfl⟩ := List.cons.inj (Option.some.inj h)
        rw [eq_of_ofSource?_named hs, ih hrest, List.map_cons]
    · cases h

mutual
/-- **The written form of a type that was read is read as the type.** -/
theorem ofSource?_toJson : ∀ {s : Source} {t : EnvelopeType},
    ofSource? s = some t → ofSource? t.toJson.toSource = some t
  | .string _, _, h => by cases h; rfl
  | .array elements, t, h => by
    rw [ofSource?] at h
    split at h
    next m _ =>
      cases h
      exact congrArg (Option.map map) (Exact.readsBack m)
    next hmap =>
      obtain ⟨ts, hts, rfl⟩ := Option.map_eq_some_iff.mp h
      have hagain : allOfSource? (Json.allToSource (allToJson ts)) = some ts :=
        allOfSource?_toJson hts
      -- were the written union a map type, it would be three names, and so would what was read
      have hunion : (read? (.array (Json.allToSource (allToJson ts))) : Option MapType) = none := by
        cases hread : (read? (.array (Json.allToSource (allToJson ts))) : Option MapType) with
        | none => rfl
        | some m =>
          rw [eq_of_read?_array hread] at hagain
          cases hagain
          have hthree : elements = [m.kind, m.keys, m.values].map .string :=
            eq_of_allOfSource?_named hts
          rw [hthree] at hmap
          cases hmap
      show ofSource? (.array (Json.allToSource (allToJson ts))) = _
      rw [ofSource?, hunion, hagain]
      rfl
  | .object members, t, h => by
    rw [ofSource?] at h
    obtain ⟨m, -, rfl⟩ := Option.map_eq_some_iff.mp h
    exact congrArg (Option.map map) (Exact.readsBack m)
  | .null, _, h => by cases h
  | .bool _, _, h => by cases h
  | .number _, _, h => by cases h
  | .notFinite, _, h => by cases h
  | .unreadable, _, h => by cases h

theorem allOfSource?_toJson : ∀ {elements : List Source} {ts : List EnvelopeType},
    allOfSource? elements = some ts → allOfSource? (Json.allToSource (allToJson ts)) = some ts
  | [], _, h => by cases h; rfl
  | s :: rest, ts, h => by
    rw [allOfSource?] at h
    split at h
    next t others ht hothers =>
      cases h
      rw [allToJson, Json.allToSource, allOfSource?, ofSource?_toJson ht,
        allOfSource?_toJson hothers]
    · cases h
end

instance : Lawful EnvelopeType where
  readsBack {s t} h := by
    obtain ⟨-, ht⟩ := Option.ite_none_right_eq_some.mp h
    show (if (write t).toSource.readable then ofSource? (write t).toSource else none) = some t
    rw [if_pos (Json.readable_toSource _)]
    exact ofSource?_toJson ht

end EnvelopeType

namespace EnvelopeField

theorem readsBack_of_type {f : EnvelopeField} (htype : ReadsBack f.type) : ReadsBack f := by
  refine ReadsBack.of_record rfl (fun _ => rfl) (by decide) ?declared ?parts
  case declared => exact .append declared_member declared_member
  case parts => simp [List.lookup_append, htype.read?_eq]

instance : Lawful EnvelopeField where
  readsBack {s f} h := by
    obtain ⟨r, -, h⟩ := Option.bind_eq_some_iff.mp h
    obtain ⟨name, -, h⟩ := Option.bind_eq_some_iff.mp h
    obtain ⟨type, htype, h⟩ := Option.bind_eq_some_iff.mp h
    cases h
    exact readsBack_of_type (readsBack_of_required? htype)

end EnvelopeField

namespace Envelope

theorem readsBack_of_fields {v : Envelope} (hfields : ReadsBack v.fields) : ReadsBack v := by
  refine ReadsBack.of_record rfl (fun _ => rfl) (by decide) ?declared ?parts
  case declared => exact .append (.append declared_member declared_member) declared_member
  case parts => simp [List.lookup_append, hfields.read?_eq]

instance : Lawful Envelope where
  readsBack {s v} h := by
    obtain ⟨r, -, h⟩ := Option.bind_eq_some_iff.mp h
    obtain ⟨kind, -, h⟩ := Option.bind_eq_some_iff.mp h
    obtain ⟨name, -, h⟩ := Option.bind_eq_some_iff.mp h
    obtain ⟨fields, hfields, h⟩ := Option.bind_eq_some_iff.mp h
    cases h
    exact readsBack_of_fields (readsBack_of_required? hfields)

end Envelope

end PipelineEditor
