import PipelineEditor.Proofs.Session.Implied

/-!
# A schema that the plugin fixes

Once a configuration has come in which the plugin fixes the schema, the session names no property
that stores it and the editor shows nothing.  Nothing but the schema itself is then in reach of
later operations, and of these all but one leave it alone: values for properties are stored as
values, and edited rows are refused.  Clearing the schema is not refused.  So the schema is the
one that the plugin declares until it is cleared.

* `clearsSchema` — whether the schema is cleared before the session is closed;
* `Locked` — the plugin fixes the schema, and no property stores it;
* `Step.locked_schema`, `run_locked_schema` — **in such a state only clearing changes the schema**;
* `implicit_schema_kept` — **the schema after a configuration in which the plugin fixes it**.
-/

namespace PipelineEditor

/-- A configuration in which the plugin fixes the schema names no property that stores it. -/
theorem WidgetConfig.stored?_eq_none {c : WidgetConfig} {declared : OrderedMap Json}
    (h : c.implicitFields? = some declared) : c.stored? = none := by
  obtain ⟨layout, schema⟩ := c
  cases schema with
  | none => rfl
  | some declaration =>
    cases declaration with
    | implicit fields => rfl
    | explicit properties => cases h

/-- Nothing suppresses an editor that watches no property. -/
theorem SchemaEditor.build?_eq_of_unwatched {e : SchemaEditor} (h : e.watched = none)
    (fields : Option (List StoredField)) (properties : SortedMap String) :
    e.build? fields properties = schemaText? (e.rows fields) := by
  have hfree : ¬ e.suppressed properties = true := by
    rw [suppressed, h]
    exact Bool.false_ne_true
  exact if_neg hfree

/-- What an editor writes depends on the properties only if it watches one. -/
theorem SchemaEditor.build?_of_unwatched {e : SchemaEditor} (h : e.watched = none)
    (fields : Option (List StoredField)) (properties others : SortedMap String) :
    e.build? fields properties = e.build? fields others := by
  rw [build?_eq_of_unwatched h, build?_eq_of_unwatched h]

namespace Session

/-! ## Locked states -/

/-- Whether some operation clears the schema before the session is closed. -/
def clearsSchema : List Operation → Bool
  | [] => false
  | .clearSchema :: _ => true
  | .close :: _ => false
  | _ :: rest => clearsSchema rest

theorem clearsSchema_cons_of_ne {op : Operation} (hclear : op ≠ .clearSchema)
    (hclose : op ≠ .close) (rest : List Operation) :
    clearsSchema (op :: rest) = clearsSchema rest := by
  cases op with
  | clearSchema => exact absurd rfl hclear
  | close => exact absurd rfl hclose
  | _ => rfl

/-- The plugin fixes the schema, and no property stores it. -/
structure Locked (s : Session) : Prop where
  implicit : s.node.implicit = true
  unstored : s.schemaKey? = none

/-- A configuration in which the plugin fixes the schema locks it. -/
theorem loaded_locked {s : Session} {config : WidgetConfig} {declared : OrderedMap Json}
    (h : config.implicitFields? = some declared) : (s.loaded config).Locked := by
  constructor
  · show (s.node.implicit || config.implicitFields?.isSome) = true
    rw [h, Option.isSome_some, Bool.or_true]
  · have hslot : (s.loaded config).slot = none := by
      show (config.stored?.map fun stored => Form.slotFor s.node.declarations stored.1) = none
      rw [WidgetConfig.stored?_eq_none h, Option.map_none]
    rw [schemaKey?, hslot]

/-- It also writes the schema that the plugin declares. -/
theorem schema_loaded {s : Session} {config : WidgetConfig} {declared : OrderedMap Json}
    (h : config.implicitFields? = some declared) (properties : SortedMap String) :
    (s.loaded config).node.schema
      = (SchemaEditor.of none s.settings).build? (some (declaredFields declared)) properties := by
  show (s.arranged config).schemaUnder? config = _
  rw [schemaUnder?, h]
  exact SchemaEditor.build?_of_unwatched rfl _ _ _

/-! ## Operations on locked states -/

/-- Without a new configuration a locked schema stays locked. -/
theorem Step.locked {s s' : Session} {op : Operation} {events : List Event}
    (h : Step s op s' events) (hop : ∀ config, op ≠ .configLoaded config) (hs : s.Locked) :
    s'.Locked := by
  obtain ⟨-, hkey, hfixed⟩ := h.held hop
  exact ⟨hfixed.trans hs.implicit, hkey.trans hs.unstored⟩

/-- **Only clearing changes a locked schema.** -/
theorem Step.locked_schema {s s' : Session} {op : Operation} {events : List Event}
    (h : Step s op s' events) (hop : ∀ config, op ≠ .configLoaded config) (hs : s.Locked)
    (hclear : op ≠ .clearSchema) : s'.node.schema = s.node.schema := by
  cases h with
  | ignored hclosed => rfl
  | kept hopen hnothing => exact absurd rfl (hop _)
  | loaded hopen hdeclares => exact absurd rfl (hop _)
  | lacked hopen => rfl
  | schemaGiven hopen hkey => exact absurd (hs.unstored.symm.trans hkey) nofun
  | watchedGiven hopen hkey hwatched hfree =>
    exact absurd (hs.implicit.symm.trans hfree) (by decide)
  | propertyGiven hopen hkey hother => rfl
  | editRefused hopen hfixed => rfl
  | edited hopen hfree => exact absurd (hs.implicit.symm.trans hfree) (by decide)
  | cleared hopen => exact absurd rfl hclear
  | closed hopen => rfl

/-- Clearing the schema of an open session clears it. -/
theorem Step.clears {s s' : Session} {events : List Event}
    (h : Step s .clearSchema s' events) (hopen : s.closed = false) : s'.node.schema = none := by
  cases h with
  | ignored hclosed => exact absurd (hclosed.symm.trans hopen) (by decide)
  | cleared hopen => rfl

/-- **A locked schema stays until it is cleared.** -/
theorem run_locked_schema (s : Session) {ops : List Operation} (hopen : s.closed = false)
    (hs : s.Locked) (hlast : ∀ config, Operation.configLoaded config ∉ ops) :
    (s.run ops).1.node.schema = if clearsSchema ops then none else s.node.schema := by
  induction ops generalizing s with
  | nil => rfl
  | cons op rest ih =>
    have hstep := step_handle s op
    obtain ⟨hop, hrest⟩ := not_configLoaded_cons hlast
    rw [run_cons]
    by_cases hclose : op = .close
    · subst hclose
      obtain ⟨hclosed, hnode⟩ := hstep.closes hopen
      rw [run_of_closed hclosed, hnode]
      rfl
    · have hstill := (hstep.closed_eq hclose).trans hopen
      rw [ih (s.handle op).1 hstill (hstep.locked hop hs) hrest]
      by_cases hclear : op = .clearSchema
      · subst hclear
        rw [hstep.clears hopen, ite_self]
        rfl
      · rw [hstep.locked_schema hop hs hclear, clearsSchema_cons_of_ne hclear hclose]

/-! ## Runs -/

/-- **A schema that the plugin fixes is not shown, and stays until it is cleared.**  Let a
configuration come in which the plugin fixes the schema, and after it other operations but no
further configuration.  Then the editor shows nothing, and the schema of the node is the one that
the declared fields are written as, unless an operation has cleared it. -/
theorem implicit_schema_kept (id : SessionId) (node : Node) (settings : Settings)
    (before after : List Operation) (config : WidgetConfig) (declared : OrderedMap Json)
    (last : Session)
    (hdeclares : node.declaresNothing = false)
    (hopen : ((new id node settings).run before).1.closed = false)
    (hlast : ∀ other, Operation.configLoaded other ∉ after)
    (hrun : ((new id node settings).run (before ++ .configLoaded config :: after)).1 = last)
    (himplicit : config.implicitFields? = some declared) :
    last.editorView? = none ∧
    ∀ properties, last.node.schema = if clearsSchema after then none else
      (SchemaEditor.of none settings).build? (some (declaredFields declared)) properties := by
  rw [run_configLoaded hopen hdeclares config after] at hrun
  have hsettings : ((new id node settings).run before).1.settings = settings :=
    run_settings _ before
  generalize ((new id node settings).run before).1 = s at hrun hopen hsettings
  have hlocked : (s.loaded config).Locked := loaded_locked himplicit
  constructor
  · have hfixed : last.node.implicit = true := by
      rw [← hrun, (run_held (s.loaded config) hlast).2.2]
      exact hlocked.implicit
    rw [editorView?, if_pos hfixed]
  · intro properties
    have hstill : (s.loaded config).closed = false := hopen
    rw [← hrun, run_locked_schema (s.loaded config) hstill hlocked hlast,
      schema_loaded himplicit properties, hsettings]

/-- A configuration in which the plugin fixes a schema of one text. -/
def bodyConfig : WidgetConfig where
  layout := Layout.empty
  schema := some (.implicit ⟨[("body", .string "string")], by decide⟩)

/-- A stream whose plugin fixes the schema, after one that stored it, with a format that would
imply another and rows that are refused, and cleared only after it was closed. -/
theorem implicit_schema_kept_stream :
    let last := (streamSession.run
      [.configLoaded streamConfig, .configLoaded bodyConfig, .setProperty "format" "clf",
        .setProperty "schema" "x", .editSchema [], .close, .clearSchema]).1
    last.editorView? = none ∧ last.node.schema ≠ none ∧
      last.node.schema = (SchemaEditor.of none Settings.standard).build?
        (some [⟨"body", .string "string", false⟩]) SortedMap.empty := by
  intro last
  have hlast : ∀ other, Operation.configLoaded other ∉
      [.setProperty "format" "clf", .setProperty "schema" "x", .editSchema [], .close,
        .clearSchema] := by simp
  have h := implicit_schema_kept _ streamNode Settings.standard [.configLoaded streamConfig]
    [.setProperty "format" "clf", .setProperty "schema" "x", .editSchema [], .close, .clearSchema]
    bodyConfig _ last rfl rfl hlast rfl rfl
  refine ⟨h.1, ?_, h.2 SortedMap.empty⟩
  rw [h.2 SortedMap.empty]
  exact Option.some_ne_none _

/-- A schema that the plugin fixes is lost when it is cleared. -/
theorem implicit_schema_cleared :
    ¬ ∀ (id : SessionId) (node : Node) (settings : Settings) (before after : List Operation)
      (config : WidgetConfig) (declared : OrderedMap Json) (last : Session),
      node.declaresNothing = false → ((new id node settings).run before).1.closed = false →
      (∀ other, Operation.configLoaded other ∉ after) →
      ((new id node settings).run (before ++ .configLoaded config :: after)).1 = last →
      config.implicitFields? = some declared →
      last.editorView? = none ∧
      last.node.schema = (SchemaEditor.of none settings).build? (some (declaredFields declared))
        last.node.properties := by
  intro h
  have hlast : ∀ other, Operation.configLoaded other ∉ [.clearSchema] := by simp
  have hkept := h streamSession.id streamNode Settings.standard [] [.clearSchema] bodyConfig _ _
    rfl rfl hlast rfl rfl
  exact absurd hkept.2 (by decide)

end Session

end PipelineEditor
