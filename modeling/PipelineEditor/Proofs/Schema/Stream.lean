import PipelineEditor.Proofs.Schema.Edge
import PipelineEditor.Proofs.Schema.Embedded
import PipelineEditor.Proofs.Schema.TypeEnd

/-!
# Connections that start from a stream

A connection from a stream always carries columns.  A time stamp and headers come first.  The fields
behind them are those of an embedded schema when the format of the stream implies one, whatever the
stream stores; otherwise they are those of the stored schema, if there is one that can be read; and
otherwise a single body.  An implied id that no embedded schema has counts for nothing here, while
it still hides the editor.  When the editor is hidden by an id that an embedded schema has, then the
connection shows what the editor keeps back.

* `Node.Fixed`, `Node.formatSchema?_eq_some_iff` — the embedded schema that the format implies;
* `Node.BodyFields` — **where the fields behind the first two come from**;
* `StoredField.OnEdge`, `StoredField.onEdge_of_columnAs?` — the column of one field;
* `stream_edge` — **the columns of a connection from a stream**.
-/

namespace PipelineEditor

/-! ## The column of a field -/

/-- The column that a connection makes of a field: the type is found at the end of the path through
the type of the field, and the flag says whether an array occurs on the way. -/
structure StoredField.OnEdge (f : StoredField) (c : Column) : Prop where
  name : c.name = f.name
  type : ∃ last, f.type.EndsIn last ∧ c.type.FoundAt last
  nullable : c.nullable = true ↔ f.type.MeetsArray

namespace StoredField

/-- A field is readable when a column type is found at the end of the path through its type. -/
theorem readable_iff (f : StoredField) :
    f.readable = true ↔ ∃ last, f.type.EndsIn last ∧ ∃ type : ColumnType, type.FoundAt last := by
  constructor
  · intro h
    obtain ⟨c, hc⟩ := Option.isSome_iff_exists.mp h
    obtain ⟨shape, hshape, -⟩ := exists_shape_of_columnAs? hc
    obtain ⟨last, hend⟩ := f.type.exists_endsIn
    exact ⟨last, hend, _, TypeShape.foundAt_of_ofJson hend hshape false⟩
  · rintro ⟨last, hend, type, hfound⟩
    obtain ⟨shape, hshape, -⟩ := TypeShape.exists_shape_of_foundAt hend.1 hfound
    simp only [readable, column?, columnAs?, hshape, Option.isSome_some]

/-- **The column that a connection makes of a field.** -/
theorem onEdge_of_columnAs? {f : StoredField} {c : Column} (h : f.columnAs? false = some c) :
    f.OnEdge c := by
  obtain ⟨shape, hshape, rfl⟩ := exists_shape_of_columnAs? h
  obtain ⟨last, hend⟩ := f.type.exists_endsIn
  have hflag := (TypeShape.ofJson_eq_ok_iff.mp hshape).reduce_nullable_iff false
  exact ⟨rfl, ⟨last, hend, TypeShape.foundAt_of_ofJson hend hshape false⟩, by simpa using hflag⟩

end StoredField

/-! ## The source of the fields -/

namespace Node

variable {n : Node} {implied : ImpliedSchemas}

/-- The format of a stream implies the id of an embedded schema. -/
def Fixed (n : Node) (implied : ImpliedSchemas) (e : EmbeddedSchema) : Prop :=
  e ∈ EmbeddedSchema.all ∧
    ∃ value, n.properties.get? "format" = some value ∧ implied.id? value = some e.id

theorem formatSchema?_eq_some_iff {text : String} :
    n.formatSchema? implied = some text ↔ ∃ e, n.Fixed implied e ∧ e.text = text := by
  unfold formatSchema? ImpliedSchemas.schemaText?
  constructor
  · intro h
    obtain ⟨value, hvalue, htext⟩ := Option.bind_eq_some_iff.mp h
    obtain ⟨id, hid, hfound⟩ := Option.bind_eq_some_iff.mp htext
    obtain ⟨e, he, rfl, rfl⟩ := EmbeddedSchema.textOf?_eq_some_iff.mp hfound
    exact ⟨e, ⟨he, value, hvalue, hid⟩, rfl⟩
  · rintro ⟨e, ⟨he, value, hvalue, hid⟩, rfl⟩
    have hfound := EmbeddedSchema.textOf?_eq_some_iff.mpr ⟨e, he, rfl, rfl⟩
    rw [hvalue, Option.bind_some, hid, Option.bind_some, hfound]

theorem Fixed.unique {e other : EmbeddedSchema} (h : n.Fixed implied e)
    (hother : n.Fixed implied other) : other = e := by
  obtain ⟨he, value, hvalue, hid⟩ := h
  obtain ⟨hmem, otherValue, hotherValue, hotherId⟩ := hother
  have hsame : otherValue = value := Option.some.inj (hotherValue.symm.trans hvalue)
  rw [hsame] at hotherId
  exact EmbeddedSchema.eq_of_id_eq hmem he (Option.some.inj (hotherId.symm.trans hid))

/-- Where the fields of a stream behind the first two come from. -/
inductive BodyFields (n : Node) (implied : ImpliedSchemas) : List StoredField → Prop
  | fixed {e : EmbeddedSchema} {fields : List StoredField} (h : n.Fixed implied e)
      (hread : storedFields? (some e.text) = some fields) : BodyFields n implied fields
  | stored {fields : List StoredField} (hfree : ∀ e, ¬ n.Fixed implied e)
      (hread : storedFields? n.schema = some fields) : BodyFields n implied fields
  | body (hfree : ∀ e, ¬ n.Fixed implied e) (hread : storedFields? n.schema = none) :
      BodyFields n implied [⟨"body", .string "string", false⟩]

/-- The fields of the embedded schema that the format implies. -/
theorem Fixed.bodyFields {e : EmbeddedSchema} (h : n.Fixed implied e) :
    n.BodyFields implied (e.columns.map StoredField.ofColumn) :=
  .fixed h (EmbeddedSchema.spelled_of_mem h.1).storedFields?_text

/-- The fields always come from somewhere. -/
theorem exists_bodyFields (n : Node) (implied : ImpliedSchemas) :
    ∃ fields, n.BodyFields implied fields := by
  by_cases hfixed : ∃ e, n.Fixed implied e
  · obtain ⟨e, he⟩ := hfixed
    exact ⟨_, he.bodyFields⟩
  · have hfree : ∀ e, ¬ n.Fixed implied e := fun e he => hfixed ⟨e, he⟩
    cases hread : storedFields? n.schema with
    | some fields => exact ⟨fields, .stored hfree hread⟩
    | none => exact ⟨_, .body hfree hread⟩

/-- **The connection from a stream reads the fields where they come from.** -/
theorem BodyFields.edgeFields?_eq {fields : List StoredField} (hname : n.name = "Stream")
    (h : n.BodyFields implied fields) : n.edgeFields? implied = some (streamHead ++ fields) := by
  have hstream : n.isStream = true := beq_iff_eq.mpr hname
  have hnone : (∀ e, ¬ n.Fixed implied e) → n.formatSchema? implied = none := by
    intro hfree
    refine Option.eq_none_iff_forall_ne_some.mpr fun text htext => ?_
    obtain ⟨e, he, -⟩ := formatSchema?_eq_some_iff.mp htext
    exact hfree e he
  rw [edgeFields?, if_pos hstream]
  cases h with
  | @fixed e _ he hread =>
    have htext : n.formatSchema? implied = some e.text := formatSchema?_eq_some_iff.mpr ⟨e, he, rfl⟩
    simp only [htext, Option.orElse_some, hread, Option.getD_some]
  | stored hfree hread => simp only [hnone hfree, Option.orElse_none, hread, Option.getD_some]
  | body hfree hread =>
    simp only [hnone hfree, Option.orElse_none, hread, Option.getD_none]
    rfl

/-- They come from one place only. -/
theorem BodyFields.unique {fields others : List StoredField} (h : n.BodyFields implied fields)
    (hothers : n.BodyFields implied others) : others = fields := by
  -- of the nine pairs of sources the three that agree are left, each by what it reads
  cases h with
  | fixed he hread =>
    cases hothers with
    | fixed hother hotherRead =>
      rw [he.unique hother, hread] at hotherRead
      exact (Option.some.inj hotherRead).symm
    | stored hfree _ => exact absurd he (hfree _)
    | body hfree _ => exact absurd he (hfree _)
  | stored hfree hread =>
    cases hothers with
    | fixed hother _ => exact absurd hother (hfree _)
    | stored _ hotherRead => exact Option.some.inj (hotherRead.symm.trans hread)
    | body _ hotherRead => rw [hread] at hotherRead; cases hotherRead
  | body hfree hread =>
    cases hothers with
    | fixed hother _ => exact absurd hother (hfree _)
    | stored _ hotherRead => rw [hread] at hotherRead; cases hotherRead
    | body _ _ => rfl

/-- The columns that come first on every connection from a stream. -/
def firstColumns : List Column :=
  [⟨"ts", .scalar "long", false⟩, ⟨"headers", .map "string" "string", false⟩]

/-- **The columns of a connection from a stream**, from the fields behind the first two. -/
theorem BodyFields.edgeColumns?_eq {fields : List StoredField} (hname : n.name = "Stream")
    (h : n.BodyFields implied fields) :
    n.edgeColumns? implied = some (firstColumns ++ fields.filterMap (·.columnAs? false)) := by
  have hfirst : streamHead.filterMap (·.columnAs? false) = firstColumns := by decide
  rw [edgeColumns?, h.edgeFields?_eq hname, Option.map_some, List.filterMap_append, hfirst]

/-- A format that implies an embedded schema leaves no other columns. -/
theorem Fixed.edgeColumns?_eq {e : EmbeddedSchema} (hname : n.name = "Stream")
    (h : n.Fixed implied e) : n.edgeColumns? implied = some (firstColumns ++ e.columns) := by
  rw [h.bodyFields.edgeColumns?_eq hname, filterMap_columnAs?_ofColumn,
    (EmbeddedSchema.spelled_of_mem h.1).columns_ofColumn]

end Node

/-! ## Streams -/

/-- An editor that watches the format and is suppressed has found an id for it. -/
theorem SchemaEditor.exists_implied {e : SchemaEditor} {properties : SortedMap String}
    {watched : String} (hwatched : e.watched = some watched) (h : e.suppressed properties = true) :
    ∃ value id, properties.get? watched = some value ∧ e.implied.id? value = some id := by
  unfold suppressed at h
  rw [hwatched, Option.bind_some] at h
  split at h
  next value hvalue =>
    obtain ⟨id, hid⟩ := Option.isSome_iff_exists.mp h
    exact ⟨value, id, hvalue, hid⟩
  next => cases h

/-- **The columns of a connection from a stream.**  There always are columns.  First come a time
stamp and headers; then one column for every field, from the one place that the fields come from,
whose type can be read, with the name of the field, the type at the end of the path through its type,
and a flag that says whether an array occurs on the way.  When the format implies an embedded schema,
the columns behind the first two are those of the schema, whatever the stream stores.  Hence, when an
editor that watches the format is hidden by an id and an embedded schema has this id, the connection
carries exactly that schema behind the first two columns. -/
theorem stream_edge {n : Node} (hname : n.name = "Stream") (implied : ImpliedSchemas) :
    (∃ fields columns, n.BodyFields implied fields ∧
      (∀ others, n.BodyFields implied others → others = fields) ∧
      n.edgeColumns? implied = some (⟨"ts", .scalar "long", false⟩ ::
        ⟨"headers", .map "string" "string", false⟩ :: columns) ∧
      (∀ f : StoredField, f.readable = true ↔
        ∃ last, f.type.EndsIn last ∧ ∃ type : ColumnType, type.FoundAt last) ∧
      List.Forall₂ StoredField.OnEdge (fields.filter StoredField.readable) columns) ∧
    (∀ e, n.Fixed implied e → n.edgeColumns? implied = some (⟨"ts", .scalar "long", false⟩ ::
      ⟨"headers", .map "string" "string", false⟩ :: e.columns)) ∧
    ∀ editor : SchemaEditor, editor.watched = some "format" → editor.implied = implied →
      editor.suppressed n.properties = true →
      ∃ value id, n.properties.get? "format" = some value ∧ implied.id? value = some id ∧
        ∀ e ∈ EmbeddedSchema.all, e.id = id →
          n.edgeColumns? implied = some (⟨"ts", .scalar "long", false⟩ ::
            ⟨"headers", .map "string" "string", false⟩ :: e.columns) := by
  refine ⟨?_, fun e he => he.edgeColumns?_eq hname, ?_⟩
  · obtain ⟨fields, hfields⟩ := n.exists_bodyFields implied
    have hedge := hfields.edgeColumns?_eq hname
    refine ⟨fields, _, hfields, fun _ h => hfields.unique h, hedge, StoredField.readable_iff, ?_⟩
    exact (readable_columns (fun _ => false) fields).imp fun _ _ => StoredField.onEdge_of_columnAs?
  · intro editor hwatched himplied hsuppressed
    obtain ⟨value, id, hvalue, hid⟩ := SchemaEditor.exists_implied hwatched hsuppressed
    rw [himplied] at hid
    refine ⟨value, id, hvalue, hid, ?_⟩
    rintro e he rfl
    exact Node.Fixed.edgeColumns?_eq hname ⟨he, value, hvalue, hid⟩

/-- A stream in common log format that stores a schema of its own. -/
def logStream : Node where
  id := "Stream-1"
  name := "Stream"
  type := "streamsource"
  label := none
  description := none
  properties := SortedMap.ofList [("format", "clf")]
  schema := some "\x7b\"fields\": [\x7b\"name\": \"line\", \"type\": \"string\"\x7d]\x7d"
  declarations := OrderedMap.empty
  implicit := false

/-- An editor that watches the format. -/
def formatEditor : SchemaEditor where
  options := ["string"]
  defaultType := "string"
  watched := some "format"
  implied := ImpliedSchemas.standard

/-- The editor is hidden, and the connection carries the columns of the format in place of the
stored one. -/
theorem stream_edge_logStream :
    logStream.name = "Stream" ∧ formatEditor.view? (storedFields? logStream.schema)
        logStream.properties = none ∧
      logStream.edgeColumns? ImpliedSchemas.standard =
        some (⟨"ts", .scalar "long", false⟩ :: ⟨"headers", .map "string" "string", false⟩ ::
          EmbeddedSchema.commonLog.columns) := by
  have hname : logStream.name = "Stream" := rfl
  have hsuppressed : formatEditor.suppressed logStream.properties = true := by decide
  obtain ⟨-, -, hhidden⟩ := stream_edge hname ImpliedSchemas.standard
  obtain ⟨value, id, hvalue, hid, hedge⟩ := hhidden formatEditor rfl rfl hsuppressed
  have hclf : logStream.properties.get? "format" = some "clf" := by decide
  have hcommon : ImpliedSchemas.standard.id? "clf" = some EmbeddedSchema.commonLog.id := by decide
  have hsame : value = "clf" := Option.some.inj (hvalue.symm.trans hclf)
  rw [hsame] at hid
  refine ⟨hname, if_pos hsuppressed, hedge _ List.mem_cons_self ?_⟩
  exact Option.some.inj (hcommon.symm.trans hid)

/-- A stream without a format and a schema carries a body. -/
example : Node.edgeColumns? { logStream with properties := SortedMap.empty, schema := none }
    ImpliedSchemas.standard = some [⟨"ts", .scalar "long", false⟩,
      ⟨"headers", .map "string" "string", false⟩, ⟨"body", .scalar "string", false⟩] := by
  decide

end PipelineEditor
