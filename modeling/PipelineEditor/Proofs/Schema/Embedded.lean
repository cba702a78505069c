import Mathlib.Data.List.Nodup
import PipelineEditor.Proofs.Json.Reading
import PipelineEditor.Proofs.Schema.ReadBack
import PipelineEditor.Schema.Embedded

/-!
# Reading embedded schemas

The text of an embedded schema is spread over lines, one for each field, while the editor writes
compact texts.  Both hold the same record: an embedded schema is read like the written schema of the
columns that its fields stand for, each of a scalar type that may be null.  For this the schema must
have a field, and its names must stand between quotation marks as they are.

* `EmbeddedSchema.columns` — the columns that the fields stand for;
* `EmbeddedSchema.Spelled`, `EmbeddedSchema.spelled_of_mem` — what the text asks of a schema, and
  that the embedded ones have it;
* `EmbeddedSchema.readAs_fieldText`, `EmbeddedSchema.Spelled.parse?_text` — the line of a field and
  the whole text, read as JSON;
* `EmbeddedSchema.Spelled.storedFields?_text` — **the fields of a schema, read from its text**;
* `EmbeddedSchema.textOf?_eq_some_iff` — which texts are found by an id.
-/

namespace PipelineEditor

open Json

namespace EmbeddedSchema

/-- The columns that the fields of a schema stand for. -/
def columns (s : EmbeddedSchema) : List Column := s.fields.map fun f => ⟨f.1, .scalar f.2, true⟩

/-- A text that stands between quotation marks as it is. -/
def Plain (text : String) : Prop := ∀ c ∈ text.toList, escape c = [c]

instance (text : String) : Decidable (Plain text) :=
  List.decidableBAll (fun c => escape c = [c]) text.toList

/-- A schema that its text spells: it has a field, nothing needs an escape, and the types are
scalar. -/
structure Spelled (s : EmbeddedSchema) : Prop where
  nonempty : s.fields ≠ []
  name : ∀ f ∈ s.fields, Plain f.1
  type : ∀ f ∈ s.fields, Plain f.2
  scalar : ∀ f ∈ s.fields, ColumnType.ofName f.2 = .scalar f.2

theorem spelled_of_mem {s : EmbeddedSchema} (h : s ∈ all) : s.Spelled := by
  simp only [all, List.mem_cons, List.not_mem_nil, or_false] at h
  rcases h with rfl | rfl
  · exact ⟨by decide, by decide, by decide, by decide⟩
  · exact ⟨by decide, by decide, by decide, by decide⟩

theorem quote_of_plain {text : String} (h : Plain text) :
    quote text.toList = '"' :: (text.toList ++ ['"']) := by
  have hsame : text.toList.flatMap escape = text.toList := by
    rw [List.flatMap_def, List.map_congr_left h, ← List.flatMap_def]
    exact List.flatMap_singleton' _
  rw [quote, hsame, List.cons_append]

/-! ## The line of a field -/

/-- The written form of the column that a field stands for. -/
def fieldJson (f : String × String) : Json := write (EnvelopeField.ofColumn ⟨f.1, .scalar f.2, true⟩)

theorem space_blank : Space [' '] := by decide

/-- The union of a type with `null`, as it stands in the line of a field. -/
def unionChars (type : String) : List Char :=
  '[' :: (quote type.toList ++ ',' :: ([' '] ++ (quote "null".toList ++ ([] ++ [']']))))

theorem readAs_unionChars (type : String) :
    ReadAs (unionChars type) (.array [.string type, .string "null"]) 1 :=
  ReadAs.array (ElementsReadAs.cons (readAs_string type 0)
    ((ElementsReadAs.last (readAs_string "null" 0) space_nil).space space_blank))

/-- The parts of the line of a field. -/
theorem toList_fieldText {f : String × String} (hname : Plain f.1) (htype : Plain f.2) :
    (fieldText f).toList = '{' :: ([' '] ++ (quote "name".toList ++ ':' :: (([' '] ++
      quote f.1.toList) ++ ',' :: ([' '] ++ (quote "type".toList ++ ':' :: (([' '] ++
        unionChars f.2) ++ ([' '] ++ ['}']))))))) := by
  simp only [fieldText, unionChars, String.toList_append, quote_of_plain hname,
    quote_of_plain htype, List.append_assoc, List.cons_append, List.nil_append]
  rfl

/-- **The line of a field** is read as the written form of its column. -/
theorem readAs_fieldText {f : String × String} (hname : Plain f.1) (htype : Plain f.2) :
    ReadAs (fieldText f).toList (fieldJson f) 2 := by
  rw [toList_fieldText hname htype]
  have htypeMember := MembersReadAs.last "type" ((readAs_unionChars f.2).space space_blank)
    space_blank
  have hmembers := MembersReadAs.cons "name" ((readAs_string f.1 1).space space_blank)
    (htypeMember.space space_blank)
  exact ReadAs.object (hmembers.space space_blank)

/-! ## The whole text -/

theorem space_newLine (depth : Nat) : Space (newLine depth) := by
  intro c hc
  rcases List.mem_cons.mp hc with rfl | hblank
  · rfl
  · rw [List.eq_of_mem_replicate hblank]
    rfl

/-- The list of the fields, as it stands in the text of a schema. -/
def fieldsChars (fields : List (String × String)) : List Char :=
  '[' :: (newLine 2 ++ ((',' :: newLine 2).intercalate (fields.map fun f => (fieldText f).toList) ++
    (newLine 1 ++ [']'])))

/-- **The list of the fields** is read as the list of the written columns. -/
theorem Spelled.readAs_fieldsChars {s : EmbeddedSchema} (h : s.Spelled) :
    ReadAs (fieldsChars s.fields) (.array (s.fields.map fieldJson)) 3 := by
  have hlines : ∀ f ∈ s.fields, ReadAs (fieldText f).toList (fieldJson f) 2 := fun f hf =>
    readAs_fieldText (h.name f hf) (h.type f hf)
  have hnonempty := h.nonempty
  unfold fieldsChars
  cases hfields : s.fields with
  | nil => exact absurd hfields hnonempty
  | cons f fs =>
    rw [hfields] at hlines
    exact ReadAs.array ((ElementsReadAs.intercalate hlines (space_newLine 2)
      (space_newLine 1)).space (space_newLine 2))

/-- The record that the text of a schema holds. -/
def recordChars (s : EmbeddedSchema) : List Char :=
  '{' :: (newLine 1 ++ (quote "type".toList ++ ':' :: (([' '] ++ quote "record".toList) ++ ',' ::
    (newLine 1 ++ (quote "name".toList ++ ':' :: (([' '] ++ quote Envelope.recordName.toList) ++
      ',' :: (newLine 1 ++ (quote "fields".toList ++ ':' :: (([' '] ++ fieldsChars s.fields) ++
        (newLine 0 ++ ['}']))))))))))

/-- What stands in front of the lines of the fields. -/
def headText : String :=
  "\x7b\n  \"type\": \"record\",\n  \"name\": \"etlSchemaBody\",\n  \"fields\": [\n    "

/-- What stands behind them. -/
def footText : String := "\n  ]\n\x7d\n"

theorem toList_headText : headText.toList =
    '{' :: (newLine 1 ++ (quote "type".toList ++ ':' :: (([' '] ++ quote "record".toList) ++
      ',' :: (newLine 1 ++ (quote "name".toList ++ ':' :: (([' '] ++
        quote Envelope.recordName.toList) ++ ',' :: (newLine 1 ++ (quote "fields".toList ++
          ':' :: ([' '] ++ '[' :: newLine 2))))))))) := by
  decide

theorem toList_footText :
    footText.toList = newLine 1 ++ ']' :: (newLine 0 ++ '}' :: newLine 0) := by
  decide

theorem toList_text (s : EmbeddedSchema) : s.text.toList = s.recordChars ++ newLine 0 := by
  -- named pieces: matching a literal of this length against an append would take its characters apart
  have htext : s.text =
      headText ++ String.intercalate ",\n    " (s.fields.map fieldText) ++ footText := rfl
  have hseparator : ",\n    ".toList = ',' :: newLine 2 := by decide
  have hlines : s.fields.map (String.toList ∘ fieldText) =
      s.fields.map fun f => (fieldText f).toList := rfl
  rw [htext, String.toList_append, String.toList_append, toList_headText, toList_footText,
    String.toList_intercalate, hseparator, List.map_map, hlines, recordChars, fieldsChars]
  simp only [List.append_assoc, List.cons_append, List.nil_append]

/-- **The text of a schema** is read as the record of its columns. -/
theorem Spelled.parse?_text {s : EmbeddedSchema} (h : s.Spelled) :
    Source.parse? s.text =
      some (write (Envelope.ofFields (s.columns.map EnvelopeField.ofColumn))).toSource := by
  have hfields : write (s.columns.map EnvelopeField.ofColumn) =
      Json.array (s.fields.map fieldJson) := by
    rw [columns, List.map_map]
    show Json.array ((s.fields.map _).map write) = _
    rw [List.map_map]
    rfl
  have hfieldsMember := MembersReadAs.last "fields" (h.readAs_fieldsChars.space space_blank)
    (space_newLine 0)
  have hnamed := MembersReadAs.cons "name" ((readAs_string Envelope.recordName 3).space space_blank)
    (hfieldsMember.space (space_newLine 1))
  have hmembers := MembersReadAs.cons "type" ((readAs_string "record" 3).space space_blank)
    (hnamed.space (space_newLine 1))
  have hrecord : ReadAs s.recordChars (.object [("type", .string "record"),
      ("name", .string Envelope.recordName), ("fields", .array (s.fields.map fieldJson))]) 4 :=
    ReadAs.object (hmembers.space (space_newLine 1))
  rw [hrecord.parse? (by decide) (space_newLine 0) s.toList_text, ← hfields]
  rfl

/-! ## Fields and columns -/

/-- **The fields of an embedded schema, read from its text.** -/
theorem Spelled.storedFields?_text {s : EmbeddedSchema} (h : s.Spelled) :
    storedFields? (some s.text) = some (s.columns.map StoredField.ofColumn) := by
  unfold storedFields?
  simp only [Option.bind_eq_bind, Option.bind_some, h.parse?_text, StoredSchema.read?_ofColumns]
  rfl

/-- The columns of a schema come back from its fields: no type of theirs is a map. -/
theorem Spelled.columns_ofColumn {s : EmbeddedSchema} (h : s.Spelled) :
    PipelineEditor.columns (s.columns.map StoredField.ofColumn) = s.columns := by
  have hcolumn : ∀ c ∈ s.columns, c.type.Nameable ∧ c.readBack = c := by
    intro c hc
    obtain ⟨f, hf, rfl⟩ := List.mem_map.mp hc
    exact ⟨⟨f.2, h.scalar f hf⟩, rfl⟩
  rw [PipelineEditor.columns_ofColumn fun c hc => (hcolumn c hc).1]
  exact (List.map_congr_left fun c hc => (hcolumn c hc).2).trans (List.map_id _)

/-! ## Schemas by their ids -/

/-- An embedded schema has its id for itself. -/
theorem eq_of_id_eq {s t : EmbeddedSchema} (hs : s ∈ all) (ht : t ∈ all) (h : s.id = t.id) :
    s = t := by
  have hids : (all.map EmbeddedSchema.id).Nodup := by decide
  exact List.inj_on_of_nodup_map hids hs ht h

theorem mem_of_find? {id : String} {s : EmbeddedSchema}
    (h : (all.find? fun t => t.id = id) = some s) : s ∈ all ∧ s.id = id :=
  ⟨List.mem_of_find?_eq_some h, by simpa using List.find?_some h⟩

/-- **A text is found by an id** when it is the text of the embedded schema with this id. -/
theorem textOf?_eq_some_iff {id text : String} :
    textOf? id = some text ↔ ∃ s ∈ all, s.id = id ∧ s.text = text := by
  constructor
  · intro h
    obtain ⟨s, hs, rfl⟩ := Option.map_eq_some_iff.mp h
    obtain ⟨hmem, hid⟩ := mem_of_find? hs
    exact ⟨s, hmem, hid, rfl⟩
  · rintro ⟨s, hs, rfl, rfl⟩
    have hfound : (all.find? fun t => t.id = s.id).isSome = true :=
      List.find?_isSome.mpr ⟨s, hs, decide_eq_true rfl⟩
    obtain ⟨t, ht⟩ := Option.isSome_iff_exists.mp hfound
    obtain ⟨hmem, hid⟩ := mem_of_find? ht
    rw [textOf?, ht, eq_of_id_eq hmem hs hid, Option.map_some]

end EmbeddedSchema

end PipelineEditor
