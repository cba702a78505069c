import PipelineEditor.Proofs.Schema.WellFormed
import PipelineEditor.Proofs.Session.Step

/-!
# The schemas that a session writes

A node may come with any text as its schema.  A configuration writes it anew, and from then on
every schema is one that rows are written as, or there is none: what an editor builds and what
edited rows become are of this kind, and no other operation writes a schema, except for a value
given to the property that stores it, which is taken as it is.  Without such values the schema is
the text of a well-formed record, in which every field is found again.

* `Written` — the schema is one that rows are written as, or absent;
* `loaded_written`, `Step.written` — **a configuration makes it so, and an operation keeps it so**
  unless it gives the property of the schema a value;
* `schema_well_formed` — **what the schema of a node is throughout such a run**.
-/

namespace PipelineEditor

/-- What an editor builds is what some rows are written as. -/
theorem SchemaEditor.exists_rows_build? (e : SchemaEditor) (fields : Option (List StoredField))
    (properties : SortedMap String) : ∃ rows, e.build? fields properties = schemaText? rows := by
  unfold build?
  split
  · exact ⟨[], rfl⟩
  · exact ⟨e.rows fields, rfl⟩

namespace Session

/-- The schema is one that rows are written as, or absent: no rows are written as nothing. -/
def Written (s : Session) : Prop := ∃ rows, s.node.schema = schemaText? rows

/-- **A configuration that comes writes the schema anew**, whatever it was. -/
theorem loaded_written (s : Session) (config : WidgetConfig) : (s.loaded config).Written := by
  show ∃ rows, (s.arranged config).schemaUnder? config = schemaText? rows
  unfold schemaUnder?
  split
  · exact SchemaEditor.exists_rows_build? _ _ _
  · exact SchemaEditor.exists_rows_build? _ _ _

/-- What edited rows become is what they, or no rows, are written as. -/
theorem exists_rows_edited? (s : Session) (rows : List EditorRow) :
    ∃ others, s.edited? rows = schemaText? others := by
  unfold edited?
  split
  · exact ⟨[], rfl⟩
  · exact ⟨rows, rfl⟩

/-- **An operation keeps the schema a written one**, if it does not give the property that stores
it a value. -/
theorem Step.written {s s' : Session} {op : Operation} {events : List Event}
    (h : Step s op s' events)
    (hop : ∀ key value, op = .setProperty key value → s.schemaKey? ≠ some key)
    (hs : s.Written) : s'.Written := by
  cases h with
  | ignored hclosed => exact hs
  | kept hopen hnothing => exact hs
  | @loaded config hopen hdeclares => exact loaded_written s config
  | lacked hopen => exact hs
  | schemaGiven hopen hkey => exact absurd hkey (hop _ _ rfl)
  | watchedGiven hopen hkey hwatched hfree => exact SchemaEditor.exists_rows_build? _ _ _
  | propertyGiven hopen hkey hother => exact hs
  | editRefused hopen hfixed => exact hs
  | @edited rows hopen hfree => exact exists_rows_edited? s rows
  | cleared hopen => exact ⟨[], rfl⟩
  | closed hopen => exact hs

/-- **Stored schemas are well formed.**  Let a configuration come to an open session, and after it
operations of which none gives a value to the property that stores the schema at that moment.
Then the node has no schema, or it is a text that holds a well-formed record and that this record
is written as.  As a stored schema the text has the fields of the record, the type of each has a
shape, and the columns have their names: no field is left out. -/
theorem schema_well_formed (id : SessionId) (node : Node) (settings : Settings)
    (before after : List Operation) (config : WidgetConfig) (last : Session)
    (hdeclares : node.declaresNothing = false)
    (hopen : ((new id node settings).run before).1.closed = false)
    (hafter : Along (fun s op => ∀ key value, op = .setProperty key value →
      s.schemaKey? ≠ some key) ((new id node settings).run (before ++ [.configLoaded config])).1
      after)
    (hrun : ((new id node settings).run (before ++ .configLoaded config :: after)).1 = last) :
    last.node.schema = none ∨
    ∃ text record, last.node.schema = some text ∧ record.WellFormed ∧
      Envelope.ofText? text = some record ∧ record.text = text ∧
      storedFields? (some text) = some (record.fields.map EnvelopeField.stored) ∧
      (∀ f ∈ record.fields, ∃ shape, TypeShape.ofJson f.type.toJson = .ok shape) ∧
      (columns (record.fields.map EnvelopeField.stored)).map Column.name
        = record.fields.map EnvelopeField.name := by
  have hset := run_configLoaded hopen hdeclares config []
  rw [hset] at hafter
  rw [run_configLoaded hopen hdeclares config after] at hrun
  have hwritten : last.Written := by
    rw [← hrun]
    refine run_preserves_along ?_ (loaded_written _ config) hafter
    intro s op _ hop hs
    exact (step_handle s op).written hop hs
  obtain ⟨rows, hrows⟩ := hwritten
  cases htext : last.node.schema with
  | none => exact .inl rfl
  | some text =>
    right
    rw [htext] at hrows
    obtain ⟨record, hwell, hread, hsame, hstored⟩ := schemaText?_wellFormed hrows.symm
    have hshape : ∀ f ∈ record.fields, ∃ shape, TypeShape.ofJson f.type.toJson = .ok shape :=
      fun f hf => (hwell.standard f hf).exists_shape
    refine ⟨text, record, rfl, hwell, hread, hsame, hstored, hshape, ?_⟩
    rw [columns_names, List.map_map]
    · rfl
    · intro f hf
      obtain ⟨field, hfield, rfl⟩ := List.mem_map.mp hf
      exact hshape field hfield

/-- A stream that is given a text that is no schema before its configuration comes, a format that
implies none afterwards, and rows of which one has no name. -/
theorem schema_well_formed_stream :
    let last := (streamSession.run
      [.setProperty "schema" "x", .configLoaded streamConfig, .setProperty "format" "csv",
        .editSchema [.column ⟨"id", .scalar "int", true⟩, .blank, .column ⟨"", .scalar "int", true⟩,
          .column ⟨"tags", .map "string" "int", true⟩]]).1
    ∃ text record, last.node.schema = some text ∧ record.WellFormed ∧
      Envelope.ofText? text = some record ∧ record.text = text ∧
      storedFields? (some text) = some (record.fields.map EnvelopeField.stored) := by
  intro last
  have h := schema_well_formed _ streamNode Settings.standard [.setProperty "schema" "x"]
    [.setProperty "format" "csv",
      .editSchema [.column ⟨"id", .scalar "int", true⟩, .blank, .column ⟨"", .scalar "int", true⟩,
        .column ⟨"tags", .map "string" "int", true⟩]]
    streamConfig last rfl rfl ?_ rfl
  · rcases h with hnone | ⟨text, record, hschema, hwell, hread, hsame, hstored, -⟩
    · exact absurd hnone (by decide)
    · exact ⟨text, record, hschema, hwell, hread, hsame, hstored⟩
  · refine ⟨?_, nofun, trivial⟩
    intro key value hop
    cases hop
    decide

end Session

end PipelineEditor
