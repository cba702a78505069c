import PipelineEditor.Proofs.Form.Patch
import PipelineEditor.Session.Basic

/-!
# What one operation does to a session

Every operation has one of eleven effects, and `Step` lists them: the condition under which an
effect comes about, the next state and the events.  Two remarks make the list short.  Writing a
schema is the same as giving the schema's property a copy of it, because to write a value that
is already there changes nothing.  And the flag that the properties have changed is exact, also
when a configuration first patches the properties and then writes the schema: the patch and the
copy of the schema have different keys, so the one cannot undo the other.

* `Session.withSchema` — **a session with another schema**, its copy included;
* `Step` — the effects; `step_handle` — **every operation has one of them**;
* `Step.frame` — what no operation touches;
* `run_append`, `run_preserves` — runs in two parts; **what every step keeps, every run keeps**;
* `Along`, `run_preserves_along` — a condition on the operations of a run; **what the steps under
  a condition keep, the runs under it keep**;
* `run_held`, `run_configLoaded` — runs without a configuration, and one in which one comes.
-/

namespace PipelineEditor.Session

/-! ## Giving the schema's property a copy -/

theorem get?_setOrErase_self (properties : SortedMap String) (key : String)
    (value : Option String) : (setOrErase properties key value).get? key = value := by
  cases value with
  | none => exact SortedMap.get?_erase_self properties key
  | some v => exact SortedMap.get?_insert_self properties key v

theorem get?_setOrErase_of_ne (properties : SortedMap String) {key other : String}
    (value : Option String) (h : other ≠ key) :
    (setOrErase properties key value).get? other = properties.get? other := by
  cases value with
  | none => exact SortedMap.get?_erase_of_ne properties h
  | some v => exact SortedMap.get?_insert_of_ne properties v h

theorem setOrErase_eq_self {properties : SortedMap String} {key : String}
    {value : Option String} (h : properties.get? key = value) :
    setOrErase properties key value = properties := by
  cases value with
  | none => exact SortedMap.erase_eq_self h
  | some v => exact SortedMap.insert_eq_self h

/-- The properties in which the property of the schema, if there is one, is a copy of it. -/
def copied (s : Session) (schema : Option String) : SortedMap String :=
  match s.schemaKey? with
  | some key => setOrErase s.node.properties key schema
  | none => s.node.properties

theorem get?_copied_self {s : Session} {key : String} (h : s.schemaKey? = some key)
    (schema : Option String) : (s.copied schema).get? key = schema := by
  rw [copied, h]
  exact get?_setOrErase_self _ _ _

/-- Other properties are left alone. -/
theorem get?_copied_of_ne {s : Session} {other : String} (h : s.schemaKey? ≠ some other)
    (schema : Option String) : (s.copied schema).get? other = s.node.properties.get? other := by
  unfold copied
  split
  next key hkey =>
    refine get?_setOrErase_of_ne _ _ ?_
    rintro rfl
    exact h hkey
  · rfl

/-! ## States -/

/-- The session with another schema, and with its copy in the property of the schema. -/
def withSchema (s : Session) (schema : Option String) : Session :=
  { s with node := { s.node with schema := schema, properties := s.copied schema } }

/-- The session with another value for a property. -/
def withProperty (s : Session) (key value : String) : Session :=
  { s with node := { s.node with properties := s.node.properties.insert key value } }

/-- The session under a new configuration, before its schema is written. -/
def arranged (s : Session) (config : WidgetConfig) : Session :=
  { s with
    node := { s.node with
      properties := ((Form.arrange s.node config).patch.apply s.node.properties).1
      implicit := s.node.implicit || config.implicitFields?.isSome }
    config := some config
    slot := (Form.arrange s.node config).slot }

/-- The schema that a session under a new configuration is given: the declared one if the plugin
fixes it, and otherwise the stored one written again. -/
def schemaUnder? (s : Session) (config : WidgetConfig) : Option String :=
  match config.implicitFields? with
  | some declared =>
    (SchemaEditor.of none s.settings).build? (some (declaredFields declared)) s.node.properties
  | none => s.rebuilt?

/-- The session after a configuration has come. -/
def loaded (s : Session) (config : WidgetConfig) : Session :=
  (s.arranged config).withSchema ((s.arranged config).schemaUnder? config)

/-- The schema that edited rows are written as. -/
def edited? (s : Session) (rows : List EditorRow) : Option String :=
  if s.editor.suppressed s.node.properties then none else schemaText? rows

/-- Whether a state has other properties than this one. -/
def differs (s next : Session) : Bool := decide (next.node.properties ≠ s.node.properties)

/-- Writing a schema gives the session with this schema, and says whether properties changed. -/
theorem storeSchema_eq (s : Session) (schema : Option String) :
    s.storeSchema schema = (s.withSchema schema, s.differs (s.withSchema schema)) := by
  unfold storeSchema
  split
  next key hkey =>
    have hcopied : s.copied schema = setOrErase s.node.properties key schema := by
      rw [copied, hkey]
    split
    next heq =>
      have hsame : s.copied schema = s.node.properties := by
        rw [hcopied, setOrErase_eq_self heq]
      simp only [withSchema, differs, hsame, ne_eq, not_true_eq_false, decide_false]
    next hne =>
      have hother : s.copied schema ≠ s.node.properties := by
        intro h
        apply hne
        rw [← h, get?_copied_self hkey]
      simp only [withSchema, differs, hother, ne_eq, not_false_eq_true, decide_true, ← hcopied]
  next hkey =>
    have hsame : s.copied schema = s.node.properties := by rw [copied, hkey]
    simp only [withSchema, differs, hsame, ne_eq, not_true_eq_false, decide_false]

/-! ## The effect of a configuration -/

theorem schemaKey?_eq_some {s : Session} {key : String} (h : s.schemaKey? = some key) :
    ∃ slot, s.slot = some slot ∧ slot.declared = true ∧ slot.key = key := by
  unfold schemaKey? at h
  split at h
  next slot hslot =>
    split at h
    next hdeclared => exact ⟨slot, hslot, hdeclared, Option.some.inj h⟩
    · cases h
  · cases h

/-- The property of the schema after a configuration that names one has come. -/
theorem schemaKey?_loaded {s : Session} {config : WidgetConfig} {key : String}
    {options : TypeOptions} (hstored : config.stored? = some (key, options)) :
    (s.loaded config).schemaKey?
      = if s.node.declarations.contains key then some key else none := by
  have hslot : (s.loaded config).slot = some (Form.slotFor s.node.declarations key) := by
    show (config.stored?.map fun stored => Form.slotFor s.node.declarations stored.1) = _
    rw [hstored]
    rfl
  rw [schemaKey?, hslot]
  rfl

/-- The editor under a configuration that names the property of the schema. -/
theorem editor_loaded {s : Session} {config : WidgetConfig} {key : String} {options : TypeOptions}
    (hstored : config.stored? = some (key, options)) :
    (s.loaded config).editor = SchemaEditor.of (some options) s.settings := by
  show SchemaEditor.of (config.stored?.map Prod.snd) s.settings = _
  rw [hstored]
  rfl

/-- What the patch has changed, the copy of the schema leaves alone. -/
theorem get?_loaded_of_patched {s : Session} {config : WidgetConfig} {key : String}
    (h : (s.arranged config).node.properties.get? key ≠ s.node.properties.get? key) :
    (s.loaded config).node.properties.get? key
      = (s.arranged config).node.properties.get? key := by
  refine get?_copied_of_ne ?_ _
  intro hkey
  obtain ⟨slot, hslot, -, rfl⟩ := schemaKey?_eq_some hkey
  apply h
  have hpatch : (Form.arrange s.node config).patch.set.get? slot.key = none :=
    Form.arrange_patch_slot hslot
  show ((Form.arrange s.node config).patch.apply s.node.properties).1.get? slot.key = _
  rw [DefaultPatch.apply_get?, hpatch]
  rfl

/-- **The flag after a configuration is exact**: the patch or the copy of the schema has changed
something precisely when the properties are no longer the same. -/
theorem differs_loaded (s : Session) (config : WidgetConfig) :
    (((Form.arrange s.node config).patch.apply s.node.properties).2
        || (s.arranged config).differs (s.loaded config)) = s.differs (s.loaded config) := by
  rw [Bool.eq_iff_iff, Bool.or_eq_true, DefaultPatch.apply_changed]
  simp only [differs, decide_eq_true_eq]
  show (s.arranged config).node.properties ≠ s.node.properties ∨ _ ↔ _
  constructor
  · rintro (hpatched | hcopied) hsame
    · refine hpatched (SortedMap.ext_get? fun key => ?_)
      refine Decidable.byContradiction fun hkey => hkey ?_
      rw [← get?_loaded_of_patched hkey, hsame]
    · refine hcopied (SortedMap.ext_get? fun key => ?_)
      refine Decidable.byContradiction fun hkey => hkey ?_
      refine get?_loaded_of_patched fun heq => hkey ?_
      rw [hsame, heq]
  · intro hdiffers
    by_cases hpatched : (s.arranged config).node.properties = s.node.properties
    · refine .inr ?_
      rw [hpatched]
      exact hdiffers
    · exact .inl hpatched

theorem arrangeWith_eq (s : Session) (config : WidgetConfig) :
    s.arrangeWith config =
      (s.loaded config, s.event (.groupsArranged (Form.arrange s.node config).groups)
        :: (s.loaded config).schemaEvents (s.differs (s.loaded config))) := by
  have himplicit : (if config.implicitFields?.isSome = true then
      { s with
        node := { s.node with
          properties := ((Form.arrange s.node config).patch.apply s.node.properties).1
          implicit := true }
        config := some config
        slot := (Form.arrange s.node config).slot }
      else
      { s with
        node := { s.node with
          properties := ((Form.arrange s.node config).patch.apply s.node.properties).1 }
        config := some config
        slot := (Form.arrange s.node config).slot }) = s.arranged config := by
    unfold arranged
    cases config.implicitFields?.isSome <;> simp
  rw [← differs_loaded]
  simp only [arrangeWith, himplicit, storeSchema_eq]
  rfl

/-- The events after a schema was written are of three kinds. -/
theorem mem_schemaEvents {s : Session} {changed : Bool} {e : Event} :
    e ∈ s.schemaEvents changed ↔
      (changed = true ∧ e = s.propertiesEvent) ∨ e = s.event (.schemaChanged s.node.schema) ∨
        e = s.event (.schemaChecked (problemMessages s.node.schema)) := by
  cases changed <;> simp [schemaEvents]

/-! ## Effects -/

/-- The effects of operations: the next state and the events, and when they come about. -/
inductive Step (s : Session) : Operation → Session → List Event → Prop
  /-- A closed session ignores everything. -/
  | ignored {op : Operation} (hclosed : s.closed = true) : Step s op s []
  /-- For a plugin without properties a configuration is only kept. -/
  | kept {config : WidgetConfig} (hopen : s.closed = false)
      (hnothing : s.node.declaresNothing = true) :
      Step s (.configLoaded config) { s with config := some config }
        [s.event (.groupsArranged [])]
  | loaded {config : WidgetConfig} (hopen : s.closed = false)
      (hdeclares : s.node.declaresNothing = false) :
      Step s (.configLoaded config) (s.loaded config)
        (s.event (.groupsArranged (Form.arrange s.node config).groups)
          :: (s.loaded config).schemaEvents (s.differs (s.loaded config)))
  | lacked {reason : FallbackReason} (hopen : s.closed = false) :
      Step s (.configUnavailable reason) s
        [s.event (.groupsArranged (Form.plain s.node).groups),
          s.event (.configUnavailable reason.message)]
  /-- A value for the property of the schema is the schema. -/
  | schemaGiven {key value : String} (hopen : s.closed = false) (hkey : s.schemaKey? = some key) :
      Step s (.setProperty key value) (s.withSchema (some value))
        ((s.withSchema (some value)).schemaEvents (s.differs (s.withSchema (some value))))
  /-- After a value for the watched property the schema is written again, or suppressed. -/
  | watchedGiven {key value : String} (hopen : s.closed = false) (hkey : s.schemaKey? ≠ some key)
      (hwatched : s.editor.watched = some key) (hfree : s.node.implicit = false) :
      Step s (.setProperty key value)
        ((s.withProperty key value).withSchema (s.withProperty key value).rebuilt?)
        (((s.withProperty key value).withSchema
          (s.withProperty key value).rebuilt?).schemaEvents true)
  | propertyGiven {key value : String} (hopen : s.closed = false)
      (hkey : s.schemaKey? ≠ some key)
      (hother : ¬ (s.editor.watched = some key ∧ s.node.implicit = false)) :
      Step s (.setProperty key value) (s.withProperty key value)
        [(s.withProperty key value).propertiesEvent]
  /-- A schema that the plugin fixes cannot be edited. -/
  | editRefused {rows : List EditorRow} (hopen : s.closed = false)
      (hfixed : s.node.implicit = true) : Step s (.editSchema rows) s []
  | edited {rows : List EditorRow} (hopen : s.closed = false) (hfree : s.node.implicit = false) :
      Step s (.editSchema rows) (s.withSchema (s.edited? rows))
        ((s.withSchema (s.edited? rows)).schemaEvents
          (s.differs (s.withSchema (s.edited? rows))))
  | cleared (hopen : s.closed = false) :
      Step s .clearSchema (s.withSchema none)
        ((s.withSchema none).schemaEvents (s.differs (s.withSchema none)))
  | closed (hopen : s.closed = false) :
      Step s .close { s with closed := true } [s.event .sessionClosed]

theorem step_configLoaded {s : Session} (hopen : s.closed = false) (config : WidgetConfig) :
    Step s (.configLoaded config) (s.loadConfig config).1 (s.loadConfig config).2 := by
  unfold loadConfig
  split
  next hnothing => exact .kept hopen hnothing
  next hdeclares =>
    rw [arrangeWith_eq]
    exact .loaded hopen (Bool.eq_false_iff.mpr hdeclares)

theorem step_setProperty {s : Session} (hopen : s.closed = false) (key value : String) :
    Step s (.setProperty key value) (s.setProperty key value).1 (s.setProperty key value).2 := by
  unfold setProperty
  split
  next hkey =>
    rw [storeSchema_eq]
    exact .schemaGiven hopen hkey
  next hkey =>
    by_cases hwatched : s.editor.watched = some key ∧ s.node.implicit = false
    · have hstep : Step s (.setProperty key value) _ _ :=
        .watchedGiven hopen hkey hwatched.1 hwatched.2
      simp only [if_pos hwatched, storeSchema_eq]
      exact hstep
    · simp only [if_neg hwatched]
      exact .propertyGiven hopen hkey hwatched

theorem step_editSchema {s : Session} (hopen : s.closed = false) (rows : List EditorRow) :
    Step s (.editSchema rows) (s.editSchema rows).1 (s.editSchema rows).2 := by
  unfold editSchema
  split
  next hfixed => exact .editRefused hopen hfixed
  next hfree =>
    simp only [storeSchema_eq]
    exact .edited hopen (Bool.eq_false_iff.mpr hfree)

/-- **Every operation has one of the effects.** -/
theorem step_handle (s : Session) (op : Operation) :
    Step s op (s.handle op).1 (s.handle op).2 := by
  unfold handle
  split
  next hclosed => exact .ignored hclosed
  next hnot =>
    have hopen : s.closed = false := Bool.eq_false_iff.mpr hnot
    cases op with
    | configLoaded config => exact step_configLoaded hopen config
    | configUnavailable reason => exact .lacked hopen
    | setProperty key value => exact step_setProperty hopen key value
    | editSchema rows => exact step_editSchema hopen rows
    | clearSchema =>
      show Step s .clearSchema s.clearSchema.1 s.clearSchema.2
      rw [clearSchema, storeSchema_eq]
      exact .cleared hopen
    | close => exact .closed hopen

/-- **What no operation touches**: the session's id and settings, and of the node everything
but its properties, its schema and the mark that the plugin fixes the schema. -/
theorem Step.frame {s s' : Session} {op : Operation} {events : List Event}
    (h : Step s op s' events) :
    s'.id = s.id ∧ s'.settings = s.settings ∧
      s'.node = { s.node with
        properties := s'.node.properties
        schema := s'.node.schema
        implicit := s'.node.implicit } := by
  cases h <;> exact ⟨rfl, rfl, rfl⟩

theorem Step.declarations {s s' : Session} {op : Operation} {events : List Event}
    (h : Step s op s' events) : s'.node.declarations = s.node.declarations := by
  rw [h.frame.2.2]

/-- Only a new configuration changes the editor, the property of the schema and whether the plugin
fixes the schema. -/
theorem Step.held {s s' : Session} {op : Operation} {events : List Event}
    (h : Step s op s' events) (hop : ∀ config, op ≠ .configLoaded config) :
    s'.editor = s.editor ∧ s'.schemaKey? = s.schemaKey? ∧ s'.node.implicit = s.node.implicit := by
  cases h with
  | kept hopen hnothing => exact absurd rfl (hop _)
  | loaded hopen hdeclares => exact absurd rfl (hop _)
  | _ => exact ⟨rfl, rfl, rfl⟩

/-- An open session on declared properties takes a configuration that comes. -/
theorem handle_configLoaded {s : Session} (hopen : s.closed = false)
    (hdeclares : s.node.declaresNothing = false) (config : WidgetConfig) :
    (s.handle (.configLoaded config)).1 = s.loaded config := by
  have hhandle : s.handle (.configLoaded config) = s.arrangeWith config := by
    simp only [handle, hopen, loadConfig, hdeclares, Bool.false_eq_true, if_false]
  rw [hhandle, arrangeWith_eq]

/-- A closed session stays what it is. -/
theorem Step.of_closed {s s' : Session} {op : Operation} {events : List Event}
    (h : Step s op s' events) (hclosed : s.closed = true) : s' = s := by
  cases h with
  | ignored _ => rfl
  | lacked hopen => rfl
  | editRefused hopen hfixed => rfl
  | _ => exact absurd (hclosed.symm.trans ‹s.closed = false›) (by decide)

/-- A closed session answers nothing. -/
theorem Step.silent_of_closed {s s' : Session} {op : Operation} {events : List Event}
    (h : Step s op s' events) (hclosed : s.closed = true) : events = [] := by
  cases h with
  | ignored _ => rfl
  | editRefused hopen hfixed => rfl
  | _ => exact absurd (hclosed.symm.trans ‹s.closed = false›) (by decide)

/-- Closing an open session closes it and leaves the node alone. -/
theorem Step.closes {s s' : Session} {events : List Event}
    (h : Step s .close s' events) (hopen : s.closed = false) :
    s'.closed = true ∧ s'.node = s.node := by
  cases h with
  | ignored hclosed => exact absurd (hclosed.symm.trans hopen) (by decide)
  | closed hopen => exact ⟨rfl, rfl⟩

/-- Only closing closes a session. -/
theorem Step.closed_eq {s s' : Session} {op : Operation} {events : List Event}
    (h : Step s op s' events) (hop : op ≠ .close) : s'.closed = s.closed := by
  cases h with
  | closed hopen => exact absurd rfl hop
  | _ => rfl

/-! ## Runs -/

theorem run_cons (s : Session) (op : Operation) (rest : List Operation) :
    s.run (op :: rest)
      = (((s.handle op).1.run rest).1, (s.handle op).2 ++ ((s.handle op).1.run rest).2) := rfl

theorem run_append (s : Session) (before after : List Operation) :
    s.run (before ++ after)
      = (((s.run before).1.run after).1, (s.run before).2 ++ ((s.run before).1.run after).2) := by
  induction before generalizing s with
  | nil => rfl
  | cons op rest ih =>
    rw [List.cons_append, run_cons, run_cons, ih, List.append_assoc]

/-- No run changes a closed session. -/
theorem run_of_closed {s : Session} (h : s.closed = true) (ops : List Operation) :
    (s.run ops).1 = s := by
  induction ops with
  | nil => rfl
  | cons op rest ih => rw [run_cons, (step_handle s op).of_closed h, ih]

/-- A closed session answers nothing in any run. -/
theorem run_silent_of_closed {s : Session} (h : s.closed = true) (ops : List Operation) :
    (s.run ops).2 = [] := by
  induction ops with
  | nil => rfl
  | cons op rest ih =>
    rw [run_cons, (step_handle s op).silent_of_closed h, (step_handle s op).of_closed h, ih]
    rfl

/-- **What every step keeps, every run keeps.** -/
theorem run_preserves {P : Session → Prop}
    (hstep : ∀ {s s' op events}, Step s op s' events → P s → P s') {s : Session} (hs : P s)
    (ops : List Operation) : P (s.run ops).1 := by
  induction ops generalizing s with
  | nil => exact hs
  | cons op rest ih => exact ih (hstep (step_handle s op) hs)

/-- The declarations of a node stay what they are throughout a run. -/
theorem run_declarations (s : Session) (ops : List Operation) :
    (s.run ops).1.node.declarations = s.node.declarations :=
  run_preserves (P := fun t => t.node.declarations = s.node.declarations)
    (fun h hs => h.declarations.trans hs) rfl ops

/-- So do the settings of a session. -/
theorem run_settings (s : Session) (ops : List Operation) : (s.run ops).1.settings = s.settings :=
  run_preserves (P := fun t => t.settings = s.settings)
    (fun h hs => h.frame.2.1.trans hs) rfl ops

theorem run_declaresNothing (s : Session) (ops : List Operation) :
    (s.run ops).1.node.declaresNothing = s.node.declaresNothing := by
  rw [Node.declaresNothing, run_declarations]
  rfl

/-- A condition that every operation of a run meets in the state in which it is handled. -/
def Along (Q : Session → Operation → Prop) : Session → List Operation → Prop
  | _, [] => True
  | s, op :: rest => Q s op ∧ Along Q (s.handle op).1 rest

/-- **What the steps under a condition keep, the runs under it keep.** -/
theorem run_preserves_along {P : Session → Prop} {Q : Session → Operation → Prop}
    {ops : List Operation}
    (hstep : ∀ {s op}, op ∈ ops → Q s op → P s → P (s.handle op).1) {s : Session} (hs : P s)
    (hops : Along Q s ops) : P (s.run ops).1 := by
  induction ops generalizing s with
  | nil => exact hs
  | cons op rest ih =>
    have hfirst : P (s.handle op).1 := hstep List.mem_cons_self hops.1 hs
    exact ih (fun hmem => hstep (List.mem_cons_of_mem op hmem)) hfirst hops.2

/-- Without a configuration in a run, its first operation brings none, and neither does the rest. -/
theorem not_configLoaded_cons {op : Operation} {rest : List Operation}
    (h : ∀ config, Operation.configLoaded config ∉ op :: rest) :
    (∀ config, op ≠ .configLoaded config) ∧ ∀ config, Operation.configLoaded config ∉ rest := by
  constructor
  · rintro config rfl
    exact h config List.mem_cons_self
  · intro config hmem
    exact h config (List.mem_cons_of_mem op hmem)

/-- Without a new configuration all three stay what they are. -/
theorem run_held (s : Session) {ops : List Operation}
    (hops : ∀ config, Operation.configLoaded config ∉ ops) :
    (s.run ops).1.editor = s.editor ∧ (s.run ops).1.schemaKey? = s.schemaKey? ∧
      (s.run ops).1.node.implicit = s.node.implicit := by
  induction ops generalizing s with
  | nil => exact ⟨rfl, rfl, rfl⟩
  | cons op rest ih =>
    obtain ⟨hop, hrest⟩ := not_configLoaded_cons hops
    obtain ⟨heditor, hkey, hfixed⟩ := (step_handle s op).held hop
    obtain ⟨hrestEditor, hrestKey, hrestFixed⟩ := ih (s.handle op).1 hrest
    exact ⟨hrestEditor.trans heditor, hrestKey.trans hkey, hrestFixed.trans hfixed⟩

/-- A run in which a configuration comes goes on from the session that it has set up. -/
theorem run_configLoaded {s : Session} {before : List Operation}
    (hopen : (s.run before).1.closed = false) (hdeclares : s.node.declaresNothing = false)
    (config : WidgetConfig) (after : List Operation) :
    (s.run (before ++ .configLoaded config :: after)).1
      = (((s.run before).1.loaded config).run after).1 := by
  have hstill : (s.run before).1.node.declaresNothing = false := by
    rw [run_declaresNothing, hdeclares]
  rw [run_append, run_cons, handle_configLoaded hopen hstill]

/-! ## A session on a stream -/

/-- A stream whose plugin declares a format and a schema. -/
def streamNode : Node where
  id := "Stream-1"
  name := "Stream"
  type := "batchsource"
  label := none
  description := none
  properties := SortedMap.empty.insert "format" ""
  schema := none
  declarations := ⟨[("format", ⟨"format", "", false, none⟩),
    ("schema", ⟨"schema", "", true, none⟩)], by decide⟩
  implicit := false

/-- A configuration that groups the format, watches it, and stores the schema in `schema`. -/
def streamConfig : WidgetConfig where
  layout := ⟨["general"], SortedMap.empty.insert "general" ⟨"General", ["format", "format"],
    SortedMap.empty⟩⟩
  schema := some (.explicit ⟨[("schema", ⟨[], none, some "format"⟩)], by decide⟩)

/-- A new session on the stream. -/
def streamSession : Session :=
  new ⟨List.replicate 32 ⟨0, by decide⟩, List.length_replicate⟩ streamNode Settings.standard

end PipelineEditor.Session
