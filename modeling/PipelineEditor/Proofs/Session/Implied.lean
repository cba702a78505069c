import PipelineEditor.Proofs.Session.Mirror

/-!
# A schema that the watched property implies

While the watched property has a value that implies a schema, there is nothing to edit, and the
node is to have no schema of its own.  Three paths ask for this before they write: a
configuration that comes, a new value for the watched property, and edited rows.  A fourth does
not ask: a value given to the property that stores the schema becomes the schema, whatever the
watched property says.  So an implied schema is withheld from the node except after such a value,
and then until the schema is written on one of the other paths or cleared.

One case is out of reach of all this.  If the watched property is the very one that stores the
schema, then what implies a schema is the schema itself.

* `schemaImplied` — whether the watched property implies the schema in a state;
* `Overrides`, `Renews` — operations that write a schema in place of an implied one, and those
  that take it back;
* `Overridden` — whether that has happened after a run;
* `Step.schema_iff` — **when one operation leaves a schema in place of an implied one**;
* `run_schema_iff`, `implied_schema_withheld` — **the law for runs**.
-/

namespace PipelineEditor

/-! ## Editors and properties -/

namespace SchemaEditor

/-- Only the watched property decides whether a schema is implied. -/
theorem suppressed_congr {e : SchemaEditor} {properties others : SortedMap String}
    (h : ∀ watched, e.watched = some watched →
      properties.get? watched = others.get? watched) :
    e.suppressed properties = e.suppressed others := by
  have hvalue : e.watched.bind properties.get? = e.watched.bind others.get? := by
    cases hwatched : e.watched with
    | none => rfl
    | some watched => exact h watched hwatched
  unfold suppressed
  rw [hvalue]

/-- A schema is implied by a value of the watched property that the settings know. -/
theorem suppressed_of_value {e : SchemaEditor} {properties : SortedMap String}
    {watched value : String} (hwatched : e.watched = some watched)
    (hvalue : properties.get? watched = some value)
    (himplied : (e.implied.id? value).isSome = true) : e.suppressed properties = true := by
  have hbind : e.watched.bind properties.get? = some value := by
    rw [hwatched]
    exact hvalue
  unfold suppressed
  rw [hbind]
  exact himplied

/-- A suppressed editor writes nothing. -/
theorem build?_of_suppressed {e : SchemaEditor} {properties : SortedMap String}
    (h : e.suppressed properties = true) (fields : Option (List StoredField)) :
    e.build? fields properties = none :=
  if_pos h

end SchemaEditor

namespace Session

/-! ## Implied schemas -/

/-- Whether the watched property implies the schema. -/
def schemaImplied (s : Session) : Bool := s.editor.suppressed s.node.properties

/-- The watched property is not the one that stores the schema. -/
def Apart (s : Session) : Prop :=
  ∀ key, s.schemaKey? = some key → s.editor.watched ≠ some key

/-- A value for the property of the schema, while the schema is implied. -/
def Overrides (s : Session) (op : Operation) : Prop :=
  s.closed = false ∧ s.schemaImplied = true ∧
    ∃ key value, op = .setProperty key value ∧ s.schemaKey? = some key

/-- The other operations that write the schema, for an editor that is the user's. -/
def Renews (s : Session) (op : Operation) : Prop :=
  s.closed = false ∧
    (op = .clearSchema ∨ (∃ rows, op = .editSchema rows) ∨
      ∃ key value, op = .setProperty key value ∧ s.editor.watched = some key)

/-- Whether an implied schema is overridden after a run, given whether it was before: some
operation has overridden it, and none has written the schema anew since. -/
def Overridden (was : Prop) : Session → List Operation → Prop
  | _, [] => was
  | s, op :: rest => Overridden (s.Overrides op ∨ (was ∧ ¬ s.Renews op)) (s.handle op).1 rest

/-! ## One operation -/

/-- The schema's own property has no say in whether the schema is implied. -/
theorem Apart.schemaImplied_withSchema {s : Session} (h : s.Apart) (schema : Option String) :
    (s.withSchema schema).schemaImplied = s.schemaImplied := by
  refine SchemaEditor.suppressed_congr ?_
  intro watched hwatched
  exact get?_copied_of_ne (fun hkey => h watched hkey hwatched) schema

/-- A value for a property that is not watched has no say in it either. -/
theorem schemaImplied_withProperty {s : Session} {key : String} (value : String)
    (hkey : s.editor.watched ≠ some key) :
    (s.withProperty key value).schemaImplied = s.schemaImplied := by
  refine SchemaEditor.suppressed_congr ?_
  intro watched hwatched
  refine SortedMap.get?_insert_of_ne _ _ ?_
  rintro rfl
  exact hkey hwatched

/-- Where a path that asks has written, nothing stands in place of an implied schema. -/
theorem Apart.withSchema_eq_none {s : Session} (h : s.Apart) {schema : Option String}
    (hschema : s.schemaImplied = true → schema = none)
    (himplied : (s.withSchema schema).schemaImplied = true) :
    (s.withSchema schema).node.schema = none := by
  rw [h.schemaImplied_withSchema] at himplied
  exact hschema himplied

/-- Only a value for the schema's property overrides. -/
theorem not_overrides {s : Session} {op : Operation}
    (h : ∀ key value, op = .setProperty key value → s.schemaKey? ≠ some key) :
    ¬ s.Overrides op := by
  rintro ⟨-, -, key, value, hop, hkey⟩
  exact h key value hop hkey

/-- An operation that neither overrides nor renews leaves the answer what it was. -/
theorem schema_iff_of_same {s s' : Session} {op : Operation} (hover : ¬ s.Overrides op)
    (hnew : ¬ s.Renews op) (hsame : s'.node.schema = s.node.schema) :
    s'.node.schema ≠ none ↔ s.Overrides op ∨ (s.node.schema ≠ none ∧ ¬ s.Renews op) := by
  rw [hsame]
  constructor
  · intro hschema
    exact .inr ⟨hschema, hnew⟩
  · rintro (h | ⟨hschema, -⟩)
    · exact absurd h hover
    · exact hschema

/-- An operation that renews withholds the schema. -/
theorem schema_iff_of_renewed {s s' : Session} {op : Operation} (hover : ¬ s.Overrides op)
    (hnew : s.Renews op) (hnone : s'.node.schema = none) :
    s'.node.schema ≠ none ↔ s.Overrides op ∨ (s.node.schema ≠ none ∧ ¬ s.Renews op) := by
  constructor
  · intro hschema
    exact absurd hnone hschema
  · rintro (h | ⟨-, h⟩)
    · exact absurd h hover
    · exact absurd hnew h

/-- **When one operation leaves a schema in place of an implied one**: when it overrides, or when
a schema was there already and the operation does not write it anew. -/
theorem Step.schema_iff {s s' : Session} {op : Operation} {events : List Event}
    (h : Step s op s' events) (hop : ∀ config, op ≠ .configLoaded config) (hapart : s.Apart)
    (hfree : s.node.implicit = false) (himplied : s'.schemaImplied = true) :
    s'.node.schema ≠ none ↔ s.Overrides op ∨ (s.node.schema ≠ none ∧ ¬ s.Renews op) := by
  cases h with
  | ignored hclosed =>
    refine schema_iff_of_same ?_ ?_ rfl
    · exact fun hover => absurd (hover.1.symm.trans hclosed) (by decide)
    · exact fun hnew => absurd (hnew.1.symm.trans hclosed) (by decide)
  | kept hopen hnothing => exact absurd rfl (hop _)
  | loaded hopen hdeclares => exact absurd rfl (hop _)
  | lacked hopen => exact schema_iff_of_same (not_overrides nofun) (fun h => nomatch h.2) rfl
  | @schemaGiven key value hopen hkey =>
    rw [hapart.schemaImplied_withSchema] at himplied
    have hover : s.Overrides (.setProperty key value) := ⟨hopen, himplied, key, value, rfl, hkey⟩
    exact ⟨fun _ => .inl hover, fun _ => Option.some_ne_none value⟩
  | @watchedGiven key value hopen hkey hwatched _ =>
    have hbefore : (s.withProperty key value).Apart := hapart
    refine schema_iff_of_renewed ?_ ⟨hopen, .inr (.inr ⟨key, value, rfl, hwatched⟩)⟩ ?_
    · refine not_overrides fun other _ hsame => ?_
      cases hsame
      exact hkey
    · exact hbefore.withSchema_eq_none (fun h => SchemaEditor.build?_of_suppressed h _) himplied
  | @propertyGiven key value hopen hkey hother =>
    refine schema_iff_of_same ?_ ?_ rfl
    · refine not_overrides fun other _ hsame => ?_
      cases hsame
      exact hkey
    · rintro ⟨-, hclear | ⟨rows, hedit⟩ | ⟨other, _, hsame, hwatched⟩⟩
      · cases hclear
      · cases hedit
      · cases hsame
        exact hother ⟨hwatched, hfree⟩
  | editRefused hopen hfixed => exact absurd (hfixed.symm.trans hfree) (by decide)
  | @edited rows hopen _ =>
    refine schema_iff_of_renewed (not_overrides nofun) ⟨hopen, .inr (.inl ⟨rows, rfl⟩)⟩ ?_
    exact hapart.withSchema_eq_none (fun h => if_pos h) himplied
  | cleared hopen => exact schema_iff_of_renewed (not_overrides nofun) ⟨hopen, .inl rfl⟩ rfl
  | closed hopen => exact schema_iff_of_same (not_overrides nofun) (fun h => nomatch h.2) rfl

/-- Without writing the schema anew an operation does not make it implied, or no longer implied. -/
theorem Step.schemaImplied_eq {s s' : Session} {op : Operation} {events : List Event}
    (h : Step s op s' events) (hop : ∀ config, op ≠ .configLoaded config) (hapart : s.Apart)
    (hfree : s.node.implicit = false) (hnew : ¬ s.Renews op) :
    s'.schemaImplied = s.schemaImplied := by
  cases h with
  | ignored hclosed => rfl
  | kept hopen hnothing => exact absurd rfl (hop _)
  | loaded hopen hdeclares => exact absurd rfl (hop _)
  | lacked hopen => rfl
  | schemaGiven hopen hkey => exact hapart.schemaImplied_withSchema _
  | @watchedGiven key value hopen hkey hwatched _ =>
    exact absurd ⟨hopen, .inr (.inr ⟨key, value, rfl, hwatched⟩)⟩ hnew
  | propertyGiven hopen hkey hother =>
    exact schemaImplied_withProperty _ fun hwatched => hother ⟨hwatched, hfree⟩
  | editRefused hopen hfixed => rfl
  | @edited rows hopen _ => exact absurd ⟨hopen, .inr (.inl ⟨rows, rfl⟩)⟩ hnew
  | cleared hopen => exact absurd ⟨hopen, .inl rfl⟩ hnew
  | closed hopen => rfl

/-! ## Runs -/

/-- **When a run leaves a schema in place of an implied one**: when it has been overridden. -/
theorem run_schema_iff (s : Session) {ops : List Operation} {was : Prop}
    (hlast : ∀ config, Operation.configLoaded config ∉ ops) (hapart : s.Apart)
    (hfree : s.node.implicit = false) (hs : s.schemaImplied = true → (s.node.schema ≠ none ↔ was))
    (himplied : (s.run ops).1.schemaImplied = true) :
    (s.run ops).1.node.schema ≠ none ↔ Overridden was s ops := by
  induction ops generalizing s was with
  | nil => exact hs himplied
  | cons op rest ih =>
    have hstep := step_handle s op
    obtain ⟨hop, hrest⟩ := not_configLoaded_cons hlast
    obtain ⟨heditor, hkey, hfixed⟩ := hstep.held hop
    refine ih (s.handle op).1 hrest ?_ (hfixed.trans hfree) ?_ himplied
    · rw [Apart, heditor, hkey]
      exact hapart
    · intro hnext
      rw [hstep.schema_iff hop hapart hfree hnext]
      refine or_congr_right (and_congr_left fun hnew => hs ?_)
      rw [← hstep.schemaImplied_eq hop hapart hfree hnew]
      exact hnext

/-- A configuration whose watched property is not a declared one that stores the schema keeps the
two apart. -/
theorem loaded_apart {s : Session} {config : WidgetConfig} {key watched : String}
    {options : TypeOptions} (hstored : config.stored? = some (key, options))
    (hwatched : options.watched = some watched)
    (hother : ¬ (watched = key ∧ s.node.declarations.contains key = true)) :
    (s.loaded config).Apart := by
  intro stored hstores
  rw [schemaKey?_loaded hstored] at hstores
  rw [editor_loaded hstored]
  split at hstores
  next hdeclared =>
    cases hstores
    intro hsame
    exact hother ⟨Option.some.inj (hwatched.symm.trans hsame), hdeclared⟩
  · cases hstores

/-- A configuration that comes writes the schema anew, and asks before: whatever was stored until
then, an implied schema is withheld. -/
theorem loaded_withheld {s : Session} {config : WidgetConfig} (hapart : (s.loaded config).Apart)
    (hfree : (s.loaded config).node.implicit = false)
    (himplied : (s.loaded config).schemaImplied = true) :
    (s.loaded config).node.schema = none := by
  have hnone : config.implicitFields? = none := by
    have hor : (s.node.implicit || config.implicitFields?.isSome) = false := hfree
    rw [← Option.not_isSome_iff_eq_none, (Bool.or_eq_false_iff.mp hor).2]
    decide
  have hbefore : (s.arranged config).Apart := hapart
  refine hbefore.withSchema_eq_none ?_ himplied
  intro h
  rw [schemaUnder?, hnone]
  exact SchemaEditor.build?_of_suppressed h _

/-- **An implied schema is not shown, and it is kept only where it was overridden.**  Let a
configuration come that stores the schema in a property, and after it other operations but no
further configuration.  In a state where the watched property has a value that implies a schema,
the editor shows nothing.  If the watched property is not the declared one that stores the
schema, the node has no schema unless the implied one is overridden: a value for the property of
the schema came while the schema was implied, and none of the operations since has written the
schema anew.  And if the watched property is the one that stores the schema, its value is the
schema. -/
theorem implied_schema_withheld (id : SessionId) (node : Node) (settings : Settings)
    (before after : List Operation) (config : WidgetConfig) (key watched value : String)
    (options : TypeOptions) (last : Session)
    (hdeclares : node.declaresNothing = false)
    (hopen : ((new id node settings).run before).1.closed = false)
    (hlast : ∀ other, Operation.configLoaded other ∉ after)
    (hrun : ((new id node settings).run (before ++ .configLoaded config :: after)).1 = last)
    (hstored : config.stored? = some (key, options)) (hwatched : options.watched = some watched)
    (hfree : last.node.implicit = false)
    (hvalue : last.node.properties.get? watched = some value)
    (himplied : (settings.implied.id? value).isSome = true) :
    last.editorView? = none ∧
    (¬ (watched = key ∧ node.declarations.contains key = true) →
      (last.node.schema = none ↔
        ¬ Overridden False ((new id node settings).run (before ++ [.configLoaded config])).1
          after)) ∧
    (watched = key → node.declarations.contains key = true → last.node.schema = some value) := by
  have hcopied : last.Copied := by
    rw [← hrun]
    exact run_preserves Step.copied (new_copied id node settings) _
  have hset := run_configLoaded hopen hdeclares config []
  rw [run_configLoaded hopen hdeclares config after] at hrun
  have hsettings : ((new id node settings).run before).1.settings = settings :=
    run_settings _ before
  have hdeclarations : ((new id node settings).run before).1.node.declarations
      = node.declarations := run_declarations _ before
  generalize ((new id node settings).run before).1 = s at hset hrun hsettings hdeclarations
  obtain ⟨heditor, hkey, hfixed⟩ := run_held (s.loaded config) hlast
  rw [hrun, editor_loaded hstored, hsettings] at heditor
  rw [hrun, schemaKey?_loaded hstored, hdeclarations] at hkey
  rw [hrun] at hfixed
  have hschema : last.schemaImplied = true := by
    have hwatches : last.editor.watched = some watched := by rw [heditor]; exact hwatched
    refine SchemaEditor.suppressed_of_value hwatches hvalue ?_
    rw [heditor]
    exact himplied
  refine ⟨?_, ?_, ?_⟩
  · rw [editorView?, hfree]
    exact if_pos hschema
  · intro hother
    have hapart : (s.loaded config).Apart :=
      loaded_apart hstored hwatched (by rw [hdeclarations]; exact hother)
    have hfree' : (s.loaded config).node.implicit = false := hfixed.symm.trans hfree
    have hnone := loaded_withheld hapart hfree'
    have hiff := run_schema_iff (s.loaded config) hlast hapart hfree'
      (fun h => iff_false_intro fun hne => hne (hnone h)) (hrun ▸ hschema)
    rw [hset, run, ← hiff, hrun, ne_eq, Decidable.not_not]
  · intro hsame hdeclared
    rw [if_pos hdeclared] at hkey
    rw [← hcopied key hkey, ← hsame, hvalue]

/-- A stream whose schema is given while its format implies none, and whose format then does. -/
theorem implied_schema_withheld_stream :
    let last := (streamSession.run
      [.clearSchema, .configLoaded streamConfig, .setProperty "schema" "x",
        .setProperty "format" "clf"]).1
    last.node.properties.get? "format" = some "clf" ∧
      (Settings.standard.implied.id? "clf").isSome = true ∧
      last.editorView? = none ∧ last.node.schema = none := by
  intro last
  have hvalue : last.node.properties.get? "format" = some "clf" := by decide
  have himplied : (Settings.standard.implied.id? "clf").isSome = true := by decide
  have hlast : ∀ other, Operation.configLoaded other ∉
      [.setProperty "schema" "x", .setProperty "format" "clf"] := by simp
  have h := implied_schema_withheld _ streamNode Settings.standard [.clearSchema]
    [.setProperty "schema" "x", .setProperty "format" "clf"] streamConfig "schema" "format" "clf"
    ⟨[], none, some "format"⟩ last rfl rfl hlast rfl rfl rfl rfl hvalue himplied
  refine ⟨hvalue, himplied, h.1, (h.2.1 (by decide)).mpr ?_⟩
  -- the schema was given before it was implied, and the new format has taken it back
  rintro (⟨-, -, key, value, hop, hkey⟩ | ⟨-, hnew⟩)
  · cases hop
    exact absurd hkey (by decide)
  · exact hnew ⟨rfl, .inr (.inr ⟨"format", "clf", rfl, rfl⟩)⟩

/-- A value for the property of the schema stands in place of an implied schema. -/
theorem implied_schema_overridden :
    ¬ ∀ (id : SessionId) (node : Node) (settings : Settings) (before after : List Operation)
      (config : WidgetConfig) (key watched value : String) (options : TypeOptions)
      (last : Session), node.declaresNothing = false →
      ((new id node settings).run before).1.closed = false →
      (∀ other, Operation.configLoaded other ∉ after) →
      ((new id node settings).run (before ++ .configLoaded config :: after)).1 = last →
      config.stored? = some (key, options) → options.watched = some watched →
      last.node.implicit = false → last.node.properties.get? watched = some value →
      (settings.implied.id? value).isSome = true →
      last.node.schema = none ∧ last.editorView? = none := by
  intro h
  have hlast : ∀ other, Operation.configLoaded other ∉
      [.setProperty "format" "clf", .setProperty "schema" "x"] := by simp
  have hnone := h streamSession.id streamNode Settings.standard []
    [.setProperty "format" "clf", .setProperty "schema" "x"] streamConfig "schema" "format" "clf"
    ⟨[], none, some "format"⟩ _ rfl rfl hlast rfl rfl rfl rfl (by decide) (by decide)
  exact absurd hnone.1 (by decide)

end Session

end PipelineEditor
