import PipelineEditor.Proofs.Wire.Basic
import PipelineEditor.Schema.Editor

/-!
# Reading back a written schema

A column is written as a field of a record and read again as a stored field.  On the way its type
passes through the names and map objects of the record, and a nullable column through a union
with `null`.  Names, flags, the order and every scalar type survive.  A map type does not, unless
it is the one from texts to texts: whoever reads a map object makes it that one.

* `ColumnType.Nameable` — the types that a name stands for;
* `ColumnType.readBack` — what is left of a type: **every map type becomes the one from texts to
  texts**;
* `StoredField.column?_ofColumn` — a written column is read with what is left of its type;
* `storedFields?_text` — the fields of a written record are found again;
* `columns_schemaText?`, `columns_build?` — **what rows, and what an editor, write is read back**.
-/

namespace PipelineEditor

/-! ## Types -/

namespace ColumnType

/-- A type that some name stands for. -/
def Nameable (t : ColumnType) : Prop := ∃ name, ofName name = t

/-- What is left of a type that was written and read again. -/
def readBack : ColumnType → ColumnType
  | scalar name => scalar name
  | map _ _ => textMap

theorem nameable_ofName (name : String) : (ofName name).Nameable := ⟨name, rfl⟩

theorem nameable_textMap : textMap.Nameable := ⟨"map<string, string>", by decide⟩

/-- The name of a scalar type stands for it, if any name does. -/
theorem Nameable.ofName_eq {name : String} (h : (scalar name).Nameable) :
    ofName name = scalar name := by
  obtain ⟨other, hother⟩ := h
  unfold ofName at hother
  split at hother
  · cases hother
  next hnone =>
    rw [← (scalar.inj hother), ofName, hnone]

/-- Nothing is lost of a type exactly when it is scalar or the map type from texts to texts. -/
theorem readBack_eq_self_iff (t : ColumnType) :
    t.readBack = t ↔ ∀ keys values, t = .map keys values → keys = "string" ∧ values = "string" := by
  cases t with
  | scalar name => exact ⟨fun _ _ _ h => (nomatch h), fun _ => rfl⟩
  | map keys values =>
    constructor
    · intro h keys' values' heq
      rw [← h] at heq
      exact ⟨(map.inj heq).1.symm, (map.inj heq).2.symm⟩
    · intro h
      obtain ⟨hkeys, hvalues⟩ := h keys values rfl
      rw [hkeys, hvalues]
      rfl

end ColumnType

/-- The type at the end of a path is one that a name stands for. -/
theorem TypeShape.reduce_nameable (shape : TypeShape) (nullable : Bool) :
    (shape.reduce nullable).1.Nameable := by
  induction shape with
  | scalar name => exact ColumnType.nameable_ofName name
  | union first ih => exact ih
  | map keys values => exact ColumnType.nameable_textMap
  | arrayOf items ih => exact ih

/-! ## One column -/

/-- A column with what is left of its type. -/
def Column.readBack (c : Column) : Column := { c with type := c.type.readBack }

namespace StoredField

/-- The field that is found where a column was written. -/
def ofColumn (c : Column) : StoredField := ⟨c.name, (EnvelopeField.ofColumn c).type.toJson, false⟩

/-- The type of a column has a shape, and at its end is what is left of the type. -/
theorem ofJson_ofColumnType {t : ColumnType} (h : t.Nameable) :
    ∃ shape, TypeShape.ofJson (EnvelopeType.ofColumnType t).toJson = .ok shape ∧
      ∀ nullable, shape.reduce nullable = (t.readBack, nullable) := by
  cases t with
  | scalar name =>
    refine ⟨.scalar name, rfl, fun nullable => ?_⟩
    rw [TypeShape.reduce, h.ofName_eq]
    rfl
  | map keys values => exact ⟨.map keys values, rfl, fun _ => rfl⟩

/-- **A written column is read with its name, its flag and what is left of its type.** -/
theorem column?_ofColumn {c : Column} (h : c.type.Nameable) :
    (ofColumn c).column? = some c.readBack := by
  obtain ⟨name, type, nullable⟩ := c
  obtain ⟨shape, hshape, hreduce⟩ := ofJson_ofColumnType h
  cases nullable with
  | false =>
    have htype : (ofColumn ⟨name, type, false⟩).type
        = (EnvelopeType.ofColumnType type).toJson := rfl
    simp only [column?, columnAs?, htype, hshape]
    rw [show (ofColumn ⟨name, type, false⟩).nullable = false from rfl, hreduce]
    rfl
  | true =>
    have htype : (ofColumn ⟨name, type, true⟩).type
        = .array [(EnvelopeType.ofColumnType type).toJson, .string "null"] := rfl
    simp only [column?, columnAs?, htype, TypeShape.ofJson, hshape, Except.map, TypeShape.reduce,
      hreduce]
    rfl

end StoredField

/-- The column of a field has a type that a name stands for, whatever the flag. -/
theorem StoredField.nameable_of_columnAs? {f : StoredField} {nullable : Bool} {c : Column}
    (h : f.columnAs? nullable = some c) : c.type.Nameable := by
  unfold columnAs? at h
  split at h
  next shape _ =>
    rw [← Option.some.inj h]
    exact shape.reduce_nameable nullable
  · cases h

/-- The columns of a schema are named by types that a name stands for. -/
theorem nameable_of_mem_columns {fields : List StoredField} {c : Column} (h : c ∈ columns fields) :
    c.type.Nameable := by
  obtain ⟨f, _, hf⟩ := List.mem_filterMap.mp h
  exact StoredField.nameable_of_columnAs? hf

/-- The fields where columns were written are read as those columns. -/
theorem columns_ofColumn {cs : List Column} (h : ∀ c ∈ cs, c.type.Nameable) :
    columns (cs.map StoredField.ofColumn) = cs.map Column.readBack := by
  induction cs with
  | nil => rfl
  | cons c cs ih =>
    rw [List.map_cons, List.map_cons, columns, List.filterMap_cons,
      StoredField.column?_ofColumn (h c List.mem_cons_self)]
    exact congrArg (c.readBack :: ·) (ih fun d hd => h d (List.mem_cons_of_mem _ hd))

/-! ## The text of a record -/

/-- A written type holds at most a map object. -/
theorem EnvelopeType.nests_ofColumnType (t : ColumnType) (n : Nat) :
    (EnvelopeType.ofColumnType t).toJson.Nests (n + 1) := by
  cases t with
  | scalar name => exact .string name _
  | map keys values =>
    refine .object fun m hm => ?_
    have hmem : m ∈ [("type", Json.string "map"), ("keys", .string keys),
      ("values", .string values)] := hm
    simp only [List.mem_cons, List.not_mem_nil, or_false] at hmem
    rcases hmem with rfl | rfl | rfl <;> exact .string _ _

/-- A written field holds at most a map object in a union. -/
theorem EnvelopeField.nests_ofColumn (c : Column) : (write (EnvelopeField.ofColumn c)).Nests 3 := by
  refine .object fun m hm => ?_
  have hmem : m ∈ [("name", Json.string c.name),
    ("type", (EnvelopeField.ofColumn c).type.toJson)] := hm
  simp only [List.mem_cons, List.not_mem_nil, or_false] at hmem
  rcases hmem with rfl | rfl
  · exact .string _ _
  · obtain ⟨name, type, nullable⟩ := c
    cases nullable with
    | false => exact EnvelopeType.nests_ofColumnType type 1
    | true =>
      refine .array fun j hj => ?_
      have hj : j ∈ [(EnvelopeType.ofColumnType type).toJson, .string "null"] := hj
      simp only [List.mem_cons, List.not_mem_nil, or_false] at hj
      rcases hj with rfl | rfl
      · exact EnvelopeType.nests_ofColumnType type 0
      · exact .string _ _

theorem Envelope.nests_ofColumns (cs : List Column) :
    (write (ofFields (cs.map EnvelopeField.ofColumn))).Nests 5 := by
  refine .object fun m hm => ?_
  have hmem : m ∈ [("type", Json.string "record"), ("name", .string recordName),
    ("fields", write (cs.map EnvelopeField.ofColumn))] := hm
  simp only [List.mem_cons, List.not_mem_nil, or_false] at hmem
  rcases hmem with rfl | rfl | rfl
  · exact .string _ _
  · exact .string _ _
  · refine .array fun j hj => ?_
    obtain ⟨f, hf, rfl⟩ := List.mem_map.mp hj
    obtain ⟨c, _, rfl⟩ := List.mem_map.mp hf
    exact EnvelopeField.nests_ofColumn c

/-! ## Reading the text -/

/-- The JSON form of a type is read as itself: no member comes twice. -/
theorem EnvelopeField.toJson?_type (c : Column) :
    (ofColumn c).type.toJson.toSource.toJson? = some (ofColumn c).type.toJson := by
  obtain ⟨name, type, nullable⟩ := c
  cases nullable <;> cases type <;> rfl

theorem StoredField.read?_ofColumn (c : Column) :
    read? (write (EnvelopeField.ofColumn c)).toSource = some (StoredField.ofColumn c) := by
  have htype : (read? (EnvelopeField.ofColumn c).type.toJson.toSource : Option Json) =
      some (EnvelopeField.ofColumn c).type.toJson := EnvelopeField.toJson?_type c
  have hrecord : (write (EnvelopeField.ofColumn c)).toSource.record? ["name", "type", "nullable"] =
      some ⟨[("name", .string c.name),
        ("type", (EnvelopeField.ofColumn c).type.toJson.toSource)]⟩ := rfl
  show (do
    let r ← (write (EnvelopeField.ofColumn c)).toSource.record? ["name", "type", "nullable"]
    return (StoredField.mk (← r.withDefault? "name" "") (← r.withDefault? "type" Json.null)
      (← r.withDefault? "nullable" false))) = _
  rw [hrecord]
  show ((read? (EnvelopeField.ofColumn c).type.toJson.toSource : Option Json).bind fun type =>
    some (StoredField.mk c.name type false)) = _
  rw [htype]
  rfl

/-- A record of columns is read as the list of its fields. -/
theorem StoredSchema.read?_ofColumns (cs : List Column) :
    read? (write (Envelope.ofFields (cs.map EnvelopeField.ofColumn))).toSource =
      some (StoredSchema.mk (cs.map StoredField.ofColumn)) := by
  have hplaces : (write (cs.map EnvelopeField.ofColumn)).toSource =
      .array (cs.map fun c => (write (EnvelopeField.ofColumn c)).toSource) := by
    show Source.array (Json.allToSource _) = _
    rw [Json.allToSource_eq_map, List.map_map, List.map_map]
    rfl
  have hread :
      (read? (write (cs.map EnvelopeField.ofColumn)).toSource : Option (List StoredField)) =
        some (cs.map StoredField.ofColumn) := by
    rw [hplaces]
    exact Wire.readAll?_map fun c _ => StoredField.read?_ofColumn c
  show ((read? (write (cs.map EnvelopeField.ofColumn)).toSource : Option (List StoredField)).bind
    fun fields => some (StoredSchema.mk fields)) = _
  rw [hread]
  rfl

/-- **The fields of a written record are found again.** -/
theorem storedFields?_text (cs : List Column) :
    storedFields? (some (Envelope.ofFields (cs.map EnvelopeField.ofColumn)).text) =
      some (cs.map StoredField.ofColumn) := by
  have hparse : Source.parse? (Envelope.ofFields (cs.map EnvelopeField.ofColumn)).text =
      some (write (Envelope.ofFields (cs.map EnvelopeField.ofColumn))).toSource :=
    Source.parse?_compact (Envelope.nests_ofColumns cs) (by decide)
  unfold storedFields?
  simp only [Option.bind_eq_bind, Option.bind_some, hparse, StoredSchema.read?_ofColumns]
  rfl

/-! ## Rows -/

/-- The columns that are written: those with a name. -/
def namedColumns (cs : List Column) : List Column := cs.filter fun c => c.name ≠ ""

theorem Envelope.ofColumns?_eq (cs : List Column) :
    ofColumns? cs =
      if namedColumns cs = [] then none
      else some (ofFields ((namedColumns cs).map EnvelopeField.ofColumn)) := by
  unfold ofColumns? namedColumns
  cases cs.filter fun c => c.name ≠ "" with
  | nil => rfl
  | cons c cs => rfl

/-- What rows are written as: the record of the named columns, if there is one. -/
theorem schemaText?_eq (rows : List EditorRow) :
    schemaText? rows =
      if namedColumns (rows.filterMap EditorRow.column?) = [] then none
      else some (Envelope.ofFields
        ((namedColumns (rows.filterMap EditorRow.column?)).map EnvelopeField.ofColumn)).text := by
  rw [schemaText?, Envelope.ofColumns?_eq]
  split <;> rfl

/-- **The fields of the text that rows are written as** are those of the named columns. -/
theorem storedFields?_schemaText? {rows : List EditorRow} {text : String}
    (h : schemaText? rows = some text) :
    storedFields? (some text) =
      some ((namedColumns (rows.filterMap EditorRow.column?)).map StoredField.ofColumn) := by
  rw [schemaText?_eq] at h
  split at h
  · cases h
  · rw [← Option.some.inj h]
    exact storedFields?_text _

/-- What rows are written as, if anything, is read as their named columns. -/
theorem columns_schemaText? {rows : List EditorRow}
    (hrows : ∀ c ∈ rows.filterMap EditorRow.column?, c.type.Nameable) :
    columns ((storedFields? (schemaText? rows)).getD []) =
      (namedColumns (rows.filterMap EditorRow.column?)).map Column.readBack := by
  cases htext : schemaText? rows with
  | none =>
    rw [schemaText?_eq] at htext
    split at htext
    next hnone => rw [hnone]; rfl
    · cases htext
  | some text =>
    rw [storedFields?_schemaText? htext]
    exact columns_ofColumn fun c hc => hrows c (List.mem_filter.mp hc).1

namespace EditorRow

theorem filterMap_column (cs : List Column) : (cs.map column).filterMap column? = cs := by
  rw [List.filterMap_map]
  exact List.filterMap_some

theorem filterMap_blank (n : Nat) : (List.replicate n blank).filterMap column? = [] :=
  List.filterMap_replicate_of_none rfl

end EditorRow

namespace SchemaEditor

/-- The columns in the rows of an editor: those of the stored fields, or the first column. -/
theorem filterMap_rows (e : SchemaEditor) (fields : Option (List StoredField)) :
    (e.rows fields).filterMap EditorRow.column? =
      if (columns (fields.getD [])).isEmpty then [e.firstColumn] else columns (fields.getD []) := by
  unfold rows rowsOf
  split
  · rw [List.filterMap_append, EditorRow.filterMap_column, EditorRow.filterMap_blank,
      List.append_nil]
  next hmany =>
    have hsome : (columns (fields.getD [])).isEmpty = false := by
      rw [List.isEmpty_eq_false_iff_exists_mem]
      exact List.exists_mem_of_length_pos (by unfold leastRows at hmany; omega)
    rw [hsome, if_neg (by decide), List.filterMap_append, EditorRow.filterMap_column]
    exact List.append_nil _

/-- An editor writes the named columns of the stored fields: its first column has no name. -/
theorem namedColumns_rows (e : SchemaEditor) (fields : Option (List StoredField)) :
    namedColumns ((e.rows fields).filterMap EditorRow.column?) =
      namedColumns (columns (fields.getD [])) := by
  rw [filterMap_rows]
  split
  next hempty =>
    rw [List.isEmpty_iff.mp hempty]
    rfl
  · rfl

theorem nameable_of_mem_rows (e : SchemaEditor) (fields : Option (List StoredField)) :
    ∀ c ∈ (e.rows fields).filterMap EditorRow.column?, c.type.Nameable := by
  rw [filterMap_rows]
  intro c hc
  split at hc
  · rw [List.mem_singleton.mp hc]
    exact ColumnType.nameable_ofName e.defaultType
  · exact nameable_of_mem_columns hc

end SchemaEditor

/-! ## What is read back -/

theorem map_readBack_eq_self_iff (cs : List Column) :
    cs.map Column.readBack = cs ↔
      ∀ c ∈ cs, ∀ keys values, c.type = .map keys values → keys = "string" ∧ values = "string" := by
  have hcolumn : ∀ c : Column, c.readBack = c ↔ c.type.readBack = c.type := by
    intro c
    exact ⟨fun h => congrArg Column.type h, fun h => by rw [Column.readBack, h]⟩
  induction cs with
  | nil => exact ⟨fun _ _ h => (nomatch h), fun _ => rfl⟩
  | cons c cs ih =>
    rw [List.map_cons, List.cons.injEq, hcolumn, ColumnType.readBack_eq_self_iff,
      List.forall_mem_cons]
    exact and_congr_right fun _ => ih

/-- **A written schema is read back with what is left of its types.**  The text of rows whose
types have names reads as a schema, and its columns are the named columns of the rows: in order,
each with its name, its flag and its scalar type, and with the map type from texts to texts for
every map type.  Hence all of them come back as they were exactly when that is the only map type
among them.  The same holds of an editor that is not suppressed and the columns that it starts
from, whatever the stored fields are. -/
theorem columns_read_back :
    (∀ (rows : List EditorRow) (text : String),
      (∀ c ∈ rows.filterMap EditorRow.column?, c.type.Nameable) → schemaText? rows = some text →
      ∃ fields, storedFields? (some text) = some fields ∧
        columns fields = (namedColumns (rows.filterMap EditorRow.column?)).map Column.readBack ∧
        (columns fields = namedColumns (rows.filterMap EditorRow.column?) ↔
          ∀ c ∈ namedColumns (rows.filterMap EditorRow.column?), ∀ keys values,
            c.type = .map keys values → keys = "string" ∧ values = "string")) ∧
    ∀ (e : SchemaEditor) (fields : Option (List StoredField)) (properties : SortedMap String),
      e.suppressed properties = false →
      columns ((storedFields? (e.build? fields properties)).getD []) =
        (namedColumns (columns (fields.getD []))).map Column.readBack := by
  constructor
  · intro rows text hrows htext
    have hcolumns := columns_schemaText? hrows
    rw [htext, storedFields?_schemaText? htext, Option.getD_some] at hcolumns
    refine ⟨_, storedFields?_schemaText? htext, hcolumns, ?_⟩
    rw [hcolumns]
    exact map_readBack_eq_self_iff _
  · intro e fields properties hfree
    have hbuild : e.build? fields properties = schemaText? (e.rows fields) := by
      rw [SchemaEditor.build?, if_neg (by rw [hfree]; decide)]
    rw [hbuild, columns_schemaText? (e.nameable_of_mem_rows fields), e.namedColumns_rows]

/-- A nullable number, a map from texts to texts, a column without a name and a blank row. -/
def sampleRows : List EditorRow :=
  [.column ⟨"id", .ofName "int", true⟩, .column ⟨"labels", .ofName "map<string,string>", false⟩,
    .column ⟨"", .ofName "long", false⟩, .blank]

theorem columns_read_back_sample :
    ∃ text fields, schemaText? sampleRows = some text ∧ storedFields? (some text) = some fields ∧
      columns fields = [⟨"id", .scalar "int", true⟩, ⟨"labels", .textMap, false⟩] ∧
      columns ((storedFields? ((SchemaEditor.of none Settings.standard).build? (some fields)
        (SortedMap.ofList []))).getD []) = columns fields := by
  have hrows : ∀ c ∈ sampleRows.filterMap EditorRow.column?, c.type.Nameable := by
    intro c hc
    have hmem : c ∈ [(⟨"id", .ofName "int", true⟩ : Column),
      ⟨"labels", .ofName "map<string,string>", false⟩, ⟨"", .ofName "long", false⟩] := hc
    simp only [List.mem_cons, List.not_mem_nil, or_false] at hmem
    rcases hmem with rfl | rfl | rfl
    · exact ⟨"int", rfl⟩
    · exact ⟨"map<string,string>", rfl⟩
    · exact ⟨"long", rfl⟩
  obtain ⟨fields, hfields, hcolumns, -⟩ := columns_read_back.1 sampleRows _ hrows rfl
  have hsample : columns fields = [⟨"id", .scalar "int", true⟩, ⟨"labels", .textMap, false⟩] := by
    rw [hcolumns]
    decide
  refine ⟨_, fields, rfl, hfields, hsample, ?_⟩
  rw [columns_read_back.2 _ (some fields) _ (by decide), Option.getD_some, hsample]
  decide

/-- A map from numbers to texts does not come back as it was. -/
theorem number_map_not_read_back :
    ¬ ∀ (rows : List EditorRow) (text : String),
      (∀ c ∈ rows.filterMap EditorRow.column?, c.type.Nameable) → schemaText? rows = some text →
      columns ((storedFields? (some text)).getD []) =
        namedColumns (rows.filterMap EditorRow.column?) := by
  intro h
  have hrows : ∀ c ∈ [EditorRow.column ⟨"m", .ofName "map<int, string>", false⟩].filterMap
      EditorRow.column?, c.type.Nameable := by
    intro c hc
    rw [List.mem_singleton.mp hc]
    exact ⟨"map<int, string>", rfl⟩
  obtain ⟨text, htext⟩ : ∃ text,
      schemaText? [.column ⟨"m", .ofName "map<int, string>", false⟩] = some text := ⟨_, rfl⟩
  have hread := columns_schemaText? hrows
  rw [htext, h _ text hrows htext] at hread
  exact absurd hread (by decide)

end PipelineEditor
