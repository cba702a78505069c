import PipelineEditor.Proofs.Schema.ReadBack

/-!
# Writing a stored schema again

When a node is opened, its stored text is read, the fields are reduced to columns, and the columns
are written as the new text of the node.  The first pass leaves out what cannot be shown: fields
without a name and fields whose type has no shape.  Everything else is still there afterwards, in
the same order.  The second pass can change one thing only.  A map type other than the one from
texts to texts comes from a name, is written as a map object with its arguments, and whoever reads
a map object makes it the one from texts to texts.  After two passes no such type is left, and the
text is stable.

* `schemaText?_eq_iff` — the text of rows **says as much as their named columns**;
* `SchemaEditor.rewrite?`, `keptColumns` — a stored text written again; the columns that this
  keeps;
* `SchemaEditor.rewrite?_eq_iff` — two passes **give the same text when they keep the same
  columns**, whatever the editors are;
* `SchemaEditor.keptColumns_rewrite?` — the next pass keeps all that this one has written;
* `rewriting_converges` — **what a pass keeps, when a second one changes nothing, and that a third
  one never does**.
-/

namespace PipelineEditor

/-! ## Types and columns that are read back twice -/

theorem ColumnType.readBack_readBack (t : ColumnType) : t.readBack.readBack = t.readBack := by
  cases t with
  | scalar name => rfl
  | map keys values => rfl

theorem Column.readBack_readBack (c : Column) : c.readBack.readBack = c.readBack := by
  rw [readBack, readBack, ColumnType.readBack_readBack]

/-- Reading back leaves the names alone: no named column gets lost, and none is made. -/
theorem namedColumns_map_readBack (cs : List Column) :
    namedColumns (cs.map Column.readBack) = (namedColumns cs).map Column.readBack := by
  rw [namedColumns, List.filter_map]
  rfl

theorem namedColumns_namedColumns (cs : List Column) :
    namedColumns (namedColumns cs) = namedColumns cs := by
  rw [namedColumns, namedColumns, List.filter_filter]
  simp

/-! ## What a text says -/

/-- A type can be told from the JSON form that it is written in. -/
theorem EnvelopeType.ofColumnType_injective {t u : ColumnType}
    (h : (ofColumnType t).toJson = (ofColumnType u).toJson) : t = u := by
  cases t <;> cases u <;> simp_all [ofColumnType, toJson, write, Json.member]

/-- No type is written as an array, by which a nullable column is told. -/
theorem EnvelopeType.ofColumnType_ne_array (t : ColumnType) (js : List Json) :
    (ofColumnType t).toJson ≠ .array js := by
  cases t with
  | scalar name => exact Json.noConfusion
  | map keys values => exact Json.noConfusion

/-- A column can be told from the field that is found where it was written. -/
theorem StoredField.ofColumn_injective {c d : Column} (h : ofColumn c = ofColumn d) : c = d := by
  obtain ⟨name, t, nullable⟩ := c
  obtain ⟨other, u, flag⟩ := d
  obtain ⟨hname, htype, -⟩ := StoredField.mk.inj h
  have hname : name = other := hname
  subst hname
  cases nullable <;> cases flag
  case false.false =>
    have ht : t = u := EnvelopeType.ofColumnType_injective htype
    rw [ht]
  case false.true => exact absurd htype (EnvelopeType.ofColumnType_ne_array t _)
  case true.false => exact absurd htype.symm (EnvelopeType.ofColumnType_ne_array u _)
  case true.true =>
    have hmembers := List.cons.inj (Json.array.inj htype)
    have ht : t = u := EnvelopeType.ofColumnType_injective hmembers.1
    rw [ht]

theorem schemaText?_eq_none_iff (rows : List EditorRow) :
    schemaText? rows = none ↔ namedColumns (rows.filterMap EditorRow.column?) = [] := by
  rw [schemaText?_eq]
  split <;> simp_all

/-- Nothing is written for rows exactly when none of their columns has a name. -/
theorem schemaText?_eq_none_iff_unnamed (rows : List EditorRow) :
    schemaText? rows = none ↔ ∀ c, EditorRow.column c ∈ rows → c.name = "" := by
  rw [schemaText?_eq_none_iff, namedColumns, List.filter_eq_nil_iff]
  constructor
  · intro h c hc
    have hunnamed := h c (List.mem_filterMap.mpr ⟨.column c, hc, rfl⟩)
    simpa using hunnamed
  · intro h c hc
    obtain ⟨row, hrow, hcolumn⟩ := List.mem_filterMap.mp hc
    cases row with
    | blank => cases hcolumn
    | column d =>
      cases hcolumn
      simp [h c hrow]

/-- **The text of rows says as much as their named columns.** -/
theorem schemaText?_eq_iff (rows others : List EditorRow) :
    schemaText? rows = schemaText? others ↔
      namedColumns (rows.filterMap EditorRow.column?) =
        namedColumns (others.filterMap EditorRow.column?) := by
  constructor
  · intro h
    cases htext : schemaText? rows with
    | none =>
      rw [(schemaText?_eq_none_iff rows).mp htext,
        (schemaText?_eq_none_iff others).mp (h.symm.trans htext)]
    | some text =>
      have hfields := storedFields?_schemaText? htext
      rw [storedFields?_schemaText? (h.symm.trans htext)] at hfields
      exact ((List.map_inj_right fun _ _ => StoredField.ofColumn_injective).mp
        (Option.some.inj hfields)).symm
  · intro h
    rw [schemaText?_eq, schemaText?_eq, h]

/-! ## What a pass keeps -/

/-- The columns of a stored text that have a name. -/
def keptColumns (text : Option String) : List Column :=
  namedColumns (columns ((storedFields? text).getD []))

theorem StoredField.column?_eq_none_iff (f : StoredField) :
    f.column? = none ↔ ∃ fault, TypeShape.ofJson f.type = .error fault := by
  rw [column?, columnAs?]
  cases TypeShape.ofJson f.type with
  | ok shape => simp
  | error fault => simp

theorem StoredField.name_of_column? {f : StoredField} {c : Column} (h : f.column? = some c) :
    c.name = f.name := by
  unfold column? columnAs? at h
  split at h
  · rw [← Option.some.inj h]
  · cases h

/-- No column with a name is found exactly when every field lacks a name or a type with a shape. -/
theorem namedColumns_columns_eq_nil_iff (fields : List StoredField) :
    namedColumns (columns fields) = [] ↔
      ∀ f ∈ fields, f.name = "" ∨ ∃ fault, TypeShape.ofJson f.type = .error fault := by
  rw [namedColumns, List.filter_eq_nil_iff]
  constructor
  · intro h f hf
    cases hcolumn : f.column? with
    | none => exact .inr (f.column?_eq_none_iff.mp hcolumn)
    | some c =>
      have hc := h c (List.mem_filterMap.mpr ⟨f, hf, hcolumn⟩)
      rw [← StoredField.name_of_column? hcolumn]
      exact .inl (by simpa using hc)
  · intro h c hc
    obtain ⟨f, hf, hcolumn⟩ := List.mem_filterMap.mp hc
    rcases h f hf with hname | hfault
    · simp [StoredField.name_of_column? hcolumn, hname]
    · rw [f.column?_eq_none_iff.mpr hfault] at hcolumn
      cases hcolumn

/-- **When nothing is kept of a text**: when there is none, when it does not read as a schema, and
when none of its fields has both a name and a type with a shape. -/
theorem keptColumns_eq_nil_iff (text : Option String) :
    keptColumns text = [] ↔
      text = none ∨ (∃ s, text = some s ∧ storedFields? (some s) = none) ∨
        ∃ fields, storedFields? text = some fields ∧
          ∀ f ∈ fields, f.name = "" ∨ ∃ fault, TypeShape.ofJson f.type = .error fault := by
  cases text with
  | none => exact ⟨fun _ => .inl rfl, fun _ => rfl⟩
  | some s =>
    rw [keptColumns, namedColumns_columns_eq_nil_iff]
    cases hread : storedFields? (some s) with
    | none => simp [hread]
    | some fields => simp [hread]

namespace SchemaEditor

/-- The text that a stored text is written again as. -/
def rewrite? (e : SchemaEditor) (properties : SortedMap String) (text : Option String) :
    Option String :=
  e.build? (storedFields? text) properties

variable {e : SchemaEditor} {properties : SortedMap String}

theorem rewrite?_eq (hfree : e.suppressed properties = false) (text : Option String) :
    e.rewrite? properties text = schemaText? (e.rows (storedFields? text)) :=
  if_neg (Bool.eq_false_iff.mp hfree)

/-- **Two passes give the same text when they keep the same columns**, whatever the editors and
the properties are, as long as no schema is implied. -/
theorem rewrite?_eq_iff {other : SchemaEditor} {others : SortedMap String}
    (hfree : e.suppressed properties = false) (hother : other.suppressed others = false)
    (text text' : Option String) :
    e.rewrite? properties text = other.rewrite? others text' ↔
      keptColumns text = keptColumns text' := by
  rw [rewrite?_eq hfree, rewrite?_eq hother, schemaText?_eq_iff, namedColumns_rows,
    namedColumns_rows]
  rfl

theorem rewrite?_eq_none_iff (hfree : e.suppressed properties = false) (text : Option String) :
    e.rewrite? properties text = none ↔ keptColumns text = [] := by
  rw [rewrite?_eq hfree, schemaText?_eq_none_iff, namedColumns_rows]
  rfl

/-- A text that was written reads as a schema, and its columns are the kept ones. -/
theorem columns_rewrite? (hfree : e.suppressed properties = false) (text : Option String) :
    (storedFields? (e.rewrite? properties text)).isSome = (e.rewrite? properties text).isSome ∧
    columns ((storedFields? (e.rewrite? properties text)).getD []) =
      (keptColumns text).map Column.readBack := by
  rw [rewrite?_eq hfree]
  constructor
  · cases htext : schemaText? (e.rows (storedFields? text)) with
    | none => rfl
    | some text => rw [storedFields?_schemaText? htext]; rfl
  · rw [columns_schemaText? (e.nameable_of_mem_rows _), namedColumns_rows]
    rfl

/-- **The next pass keeps all columns that this one has written.** -/
theorem keptColumns_rewrite? (hfree : e.suppressed properties = false) (text : Option String) :
    keptColumns (e.rewrite? properties text) = (keptColumns text).map Column.readBack := by
  rw [keptColumns, (columns_rewrite? hfree text).2, namedColumns_map_readBack, keptColumns,
    namedColumns_namedColumns]

/-- A second pass changes nothing exactly when it finds the types as they were. -/
theorem rewrite?_rewrite?_eq_iff (hfree : e.suppressed properties = false)
    (text : Option String) :
    e.rewrite? properties (e.rewrite? properties text) = e.rewrite? properties text ↔
      (keptColumns text).map Column.readBack = keptColumns text := by
  rw [rewrite?_eq_iff hfree hfree, keptColumns_rewrite? hfree]

/-- A third pass changes nothing. -/
theorem rewrite?_stable (hfree : e.suppressed properties = false) (text : Option String) :
    e.rewrite? properties (e.rewrite? properties (e.rewrite? properties text)) =
      e.rewrite? properties (e.rewrite? properties text) := by
  refine (rewrite?_rewrite?_eq_iff hfree (e.rewrite? properties text)).mpr ?_
  rw [keptColumns_rewrite? hfree, List.map_map]
  exact List.map_congr_left fun c _ => c.readBack_readBack

end SchemaEditor

/-! ## Convergence -/

/-- **Writing a stored text again converges, and loses no readable field.**  As long as no schema
is implied, a pass does not depend on the editor or on the properties.  What it writes reads as a
schema whose columns are the named columns of the text before: in order, each with its name, its
flag and its scalar type, and with the map type from texts to texts for every map type.  A second
pass changes nothing exactly when that is the only map type among them, and a third pass never
changes anything.  Nothing is written exactly when there is no text, when it does not read as a
schema, and when none of its fields has both a name and a type with a shape. -/
theorem rewriting_converges {e : SchemaEditor} {properties : SortedMap String}
    (hfree : e.suppressed properties = false) (text : Option String) :
    let load := e.rewrite? properties
    (∀ (other : SchemaEditor) (others : SortedMap String), other.suppressed others = false →
      other.rewrite? others text = load text) ∧
    (storedFields? (load text)).isSome = (load text).isSome ∧
    columns ((storedFields? (load text)).getD []) =
      (namedColumns (columns ((storedFields? text).getD []))).map Column.readBack ∧
    (load (load text) = load text ↔
      ∀ c ∈ namedColumns (columns ((storedFields? text).getD [])), ∀ keys values,
        c.type = .map keys values → keys = "string" ∧ values = "string") ∧
    load (load (load text)) = load (load text) ∧
    (load text = none ↔
      text = none ∨ (∃ s, text = some s ∧ storedFields? (some s) = none) ∨
        ∃ fields, storedFields? text = some fields ∧
          ∀ f ∈ fields, f.name = "" ∨ ∃ fault, TypeShape.ofJson f.type = .error fault) := by
  intro load
  obtain ⟨hreads, hcolumns⟩ := SchemaEditor.columns_rewrite? hfree text
  refine ⟨?_, hreads, hcolumns, ?_, SchemaEditor.rewrite?_stable hfree text, ?_⟩
  · intro other others hother
    exact (SchemaEditor.rewrite?_eq_iff hother hfree text text).mpr rfl
  · exact (SchemaEditor.rewrite?_rewrite?_eq_iff hfree text).trans (map_readBack_eq_self_iff _)
  · exact (SchemaEditor.rewrite?_eq_none_iff hfree text).trans (keptColumns_eq_nil_iff text)

/-- A text with a map type in a name, a field without a type, a nullable number, and a field
without a name. -/
def spelledText : String :=
  "\x7b\"fields\": [\x7b\"name\": \"m\", \"type\": \"map<int, string>\"\x7d, "
    ++ "\x7b\"name\": \"x\"\x7d, \x7b\"name\": \"n\", \"type\": [\"int\", \"null\"]\x7d, "
    ++ "\x7b\"type\": \"long\"\x7d]\x7d"

/-- Of the four fields two are kept, the second pass changes the text, and the third does not. -/
theorem rewriting_converges_spelled :
    let load := (SchemaEditor.of none Settings.standard).rewrite? SortedMap.empty
    let text := some spelledText
    (SchemaEditor.of none Settings.standard).suppressed SortedMap.empty = false ∧
      columns ((storedFields? (load text)).getD []) =
        [⟨"m", .textMap, false⟩, ⟨"n", .scalar "int", true⟩] ∧
      load (load text) ≠ load text ∧ load (load (load text)) = load (load text) ∧
      load text ≠ none := by
  intro load text
  have hfree : (SchemaEditor.of none Settings.standard).suppressed SortedMap.empty = false := rfl
  have hkept : namedColumns (columns ((storedFields? text).getD [])) =
      [⟨"m", .map "int" "string", false⟩, ⟨"n", .scalar "int", true⟩] := by decide +kernel
  obtain ⟨-, -, hcolumns, hsecond, hthird, -⟩ := rewriting_converges hfree text
  rw [hkept] at hcolumns hsecond
  have hread : columns ((storedFields? (load text)).getD []) =
      [⟨"m", .textMap, false⟩, ⟨"n", .scalar "int", true⟩] := hcolumns
  refine ⟨hfree, hread, ?_, hthird, ?_⟩
  · intro hsame
    exact absurd (hsecond.mp hsame _ List.mem_cons_self _ _ rfl).1 (by decide)
  · intro hnone
    rw [hnone] at hread
    exact absurd hread (by decide)

end PipelineEditor
