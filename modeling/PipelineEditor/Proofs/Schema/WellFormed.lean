import PipelineEditor.Proofs.Schema.ReadBack
import PipelineEditor.Proofs.Wire.Schemas

/-!
# Well-formed records

A record that is written has a fixed kind and name, and fields that all have a name and a type
of the standard form: a name, a map object, or a union of one of these with `null`.  Reading such
a type has to choose between the three.  An array is a map object if it spells the three members
of one, and a union only if it does not; a union with `null` has two members, so it is never
mistaken.  Therefore a written record is read as itself.  It is also read as a stored schema, and
there every type has a shape, so that no field is left out.

* `EnvelopeType.Plain`, `EnvelopeType.Standard` — the types without a union, and the standard ones;
* `Envelope.WellFormed` — records as they are written;
* `EnvelopeType.Standard.read?_write`, `Envelope.read?_write` — **standard types, and the records
  of such types, are read as themselves**;
* `EnvelopeType.Standard.exists_shape`, `columns_names` — a standard type has a shape, and a list
  of fields whose types have shapes loses no field;
* `schemaText?_wellFormed` — **what rows are written as, if anything, is a well-formed record**.
-/

namespace PipelineEditor

/-! ## Types -/

namespace EnvelopeType

/-- The names and the map objects. -/
inductive Plain : EnvelopeType → Prop
  | named (name : String) : Plain (.named name)
  | map (keys values : String) : Plain (.map ⟨"map", keys, values⟩)

/-- The names, the map objects, and the unions of one of these with `null`. -/
inductive Standard : EnvelopeType → Prop
  | plain {t : EnvelopeType} (h : t.Plain) : Standard t
  | nullable {t : EnvelopeType} (h : t.Plain) : Standard t.nullable

theorem plain_ofColumnType (t : ColumnType) : (ofColumnType t).Plain := by
  cases t with
  | scalar name => exact .named name
  | map keys values => exact .map keys values

/-- A standard type is read as itself: an array of two members is no map object. -/
theorem Standard.ofSource?_toJson {t : EnvelopeType} (h : t.Standard) :
    ofSource? t.toJson.toSource = some t := by
  cases h with
  | plain h => cases h <;> rfl
  | nullable h => cases h <;> rfl

theorem Standard.read?_write {t : EnvelopeType} (h : t.Standard) :
    read? (write t).toSource = some t := by
  have hreadable : t.toJson.toSource.readable = true := Json.readable_toSource t.toJson
  exact (if_pos hreadable).trans h.ofSource?_toJson

/-- The shape of a plain type ends at once. -/
theorem Plain.exists_shape {t : EnvelopeType} (h : t.Plain) :
    ∃ shape, TypeShape.ofJson t.toJson = .ok shape := by
  cases h with
  | named name => exact ⟨.scalar name, rfl⟩
  | map keys values => exact ⟨.map keys values, rfl⟩

/-- **A standard type has a shape.** -/
theorem Standard.exists_shape {t : EnvelopeType} (h : t.Standard) :
    ∃ shape, TypeShape.ofJson t.toJson = .ok shape := by
  cases h with
  | plain h => exact h.exists_shape
  | @nullable inner h =>
    obtain ⟨shape, hshape⟩ := h.exists_shape
    have hunion : inner.nullable.toJson = .array [inner.toJson, .string "null"] := rfl
    refine ⟨.union shape, ?_⟩
    rw [hunion, TypeShape.ofJson, hshape]
    rfl

end EnvelopeType

/-! ## Fields -/

namespace EnvelopeField

/-- A column is written with a standard type. -/
theorem standard_ofColumn (c : Column) : (ofColumn c).type.Standard := by
  obtain ⟨name, type, nullable⟩ := c
  cases nullable with
  | false => exact .plain (EnvelopeType.plain_ofColumnType type)
  | true => exact .nullable (EnvelopeType.plain_ofColumnType type)

/-- A field with a standard type is read as itself. -/
theorem read?_write {f : EnvelopeField} (h : f.type.Standard) :
    read? (write f).toSource = some f :=
  readsBack_of_type h.read?_write

/-- The field that a stored schema has where a record has this one. -/
def stored (f : EnvelopeField) : StoredField := ⟨f.name, f.type.toJson, false⟩

end EnvelopeField

/-- **No field whose type has a shape is left out** of the columns. -/
theorem columns_names {fields : List StoredField}
    (h : ∀ f ∈ fields, ∃ shape, TypeShape.ofJson f.type = .ok shape) :
    (columns fields).map Column.name = fields.map StoredField.name := by
  induction fields with
  | nil => rfl
  | cons f rest ih =>
    obtain ⟨shape, hshape⟩ := h f List.mem_cons_self
    have hcolumn : f.column? =
        some ⟨f.name, (shape.reduce f.nullable).1, (shape.reduce f.nullable).2⟩ := by
      rw [StoredField.column?, StoredField.columnAs?, hshape]
    rw [columns, List.filterMap_cons, hcolumn]
    exact congrArg (f.name :: ·) (ih fun g hg => h g (List.mem_cons_of_mem f hg))

/-! ## Records -/

namespace Envelope

/-- A record as schemas are written. -/
structure WellFormed (v : Envelope) : Prop where
  kind : v.kind = "record"
  name : v.name = recordName
  nonempty : v.fields ≠ []
  named : ∀ f ∈ v.fields, f.name ≠ ""
  standard : ∀ f ∈ v.fields, f.type.Standard

/-- The record that a text holds. -/
def ofText? (text : String) : Option Envelope := (Source.parse? text).bind read?

/-- **A record of standard types is read as itself.** -/
theorem read?_write {v : Envelope} (h : ∀ f ∈ v.fields, f.type.Standard) :
    read? (write v).toSource = some v := by
  have hfields : Wire.ReadsBack v.fields :=
    Wire.ReadsBack.list fun f hf => EnvelopeField.read?_write (h f hf)
  exact readsBack_of_fields hfields

/-- The record of some columns, all of them named, is well formed. -/
theorem wellFormed_ofColumns {cs : List Column} (hsome : cs ≠ []) (hnamed : ∀ c ∈ cs, c.name ≠ "") :
    (ofFields (cs.map EnvelopeField.ofColumn)).WellFormed where
  kind := rfl
  name := rfl
  nonempty := fun h => hsome (List.map_eq_nil_iff.mp h)
  named := by
    intro f hf
    obtain ⟨c, hc, rfl⟩ := List.mem_map.mp hf
    exact hnamed c hc
  standard := by
    intro f hf
    obtain ⟨c, -, rfl⟩ := List.mem_map.mp hf
    exact EnvelopeField.standard_ofColumn c

/-- The text of a record of columns holds the record. -/
theorem ofText?_ofColumns (cs : List Column) :
    ofText? (ofFields (cs.map EnvelopeField.ofColumn)).text =
      some (ofFields (cs.map EnvelopeField.ofColumn)) := by
  have hparse : Source.parse? (ofFields (cs.map EnvelopeField.ofColumn)).text =
      some (write (ofFields (cs.map EnvelopeField.ofColumn))).toSource :=
    Source.parse?_compact (nests_ofColumns cs) (by decide)
  rw [ofText?, hparse]
  refine read?_write fun f hf => ?_
  obtain ⟨c, -, rfl⟩ := List.mem_map.mp hf
  exact EnvelopeField.standard_ofColumn c

end Envelope

/-- **What rows are written as, if anything, is the text of a well-formed record**, which is read
from the text, and whose fields are those of the text as a stored schema. -/
theorem schemaText?_wellFormed {rows : List EditorRow} {text : String}
    (h : schemaText? rows = some text) :
    ∃ v : Envelope, v.WellFormed ∧ Envelope.ofText? text = some v ∧ v.text = text ∧
      storedFields? (some text) = some (v.fields.map EnvelopeField.stored) := by
  rw [schemaText?_eq] at h
  split at h
  · cases h
  next hsome =>
    rw [← Option.some.inj h]
    refine ⟨_, Envelope.wellFormed_ofColumns hsome ?_, Envelope.ofText?_ofColumns _, rfl, ?_⟩
    · intro c hc
      exact of_decide_eq_true (List.mem_filter.mp hc).2
    · rw [storedFields?_text]
      show _ = some ((List.map EnvelopeField.ofColumn _).map EnvelopeField.stored)
      rw [List.map_map]
      rfl

end PipelineEditor
