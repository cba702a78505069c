import PipelineEditor.Proofs.Session.Step

/-!
# A host that follows the events

A host never looks into a session.  It keeps the properties and the schema of the node that the
session was started with, and replaces them by what the events tell.  That is enough: after
every operation its two values are those of the session.  No event is wasted either.  Apart from
values for properties other than that of the schema, which are always told back, the properties
are told only when they have changed.

* `HostView`, `HostView.replay` — what a host keeps, and how events change it;
* `Announces` — some event tells the properties;
* `Step.replay` — **the events of one operation bring a host up to date**;
* `Step.announces_iff` — one operation tells the properties exactly when they have changed;
* `host_follows_run` — **both, for every run**.
-/

namespace PipelineEditor.Session

/-- What a host keeps of a node. -/
structure HostView where
  properties : SortedMap String
  schema : Option String

namespace HostView

/-- What a host starts from. -/
def of (n : Node) : HostView := ⟨n.properties, n.schema⟩

/-- One event: told properties and a told schema replace those kept. -/
def receive (v : HostView) (e : Event) : HostView :=
  match e.change with
  | .propertiesChanged properties => { v with properties := properties }
  | .schemaChanged schema => { v with schema := schema }
  | _ => v

/-- All events, in their order. -/
def replay (v : HostView) (events : List Event) : HostView := events.foldl receive v

theorem replay_append (v : HostView) (xs ys : List Event) :
    v.replay (xs ++ ys) = (v.replay xs).replay ys :=
  List.foldl_append

/-- After a schema was written, a host that is told has the properties of the session. -/
theorem replay_schemaEvents (v : HostView) (s : Session) (changed : Bool) :
    v.replay (s.schemaEvents changed)
      = ⟨if changed then s.node.properties else v.properties, s.node.schema⟩ := by
  cases changed <;> rfl

/-- Events with an exact flag bring a host from one state to the next. -/
theorem replay_differs (s s' : Session) :
    (of s.node).replay (s'.schemaEvents (s.differs s')) = of s'.node := by
  rw [replay_schemaEvents]
  by_cases h : s'.node.properties = s.node.properties
  · have hflag : s.differs s' = false := by simp [differs, h]
    rw [hflag, of, of, h]
    rfl
  · have hflag : s.differs s' = true := by simp [differs, h]
    rw [hflag]
    rfl

end HostView

/-- **The events of one operation bring a host up to date.** -/
theorem Step.replay {s s' : Session} {op : Operation} {events : List Event}
    (h : Step s op s' events) : (HostView.of s.node).replay events = HostView.of s'.node := by
  cases h with
  | ignored hclosed => rfl
  | kept hopen hnothing => rfl
  | loaded hopen hdeclares => exact HostView.replay_differs s _
  | lacked hopen => rfl
  | schemaGiven hopen hkey => exact HostView.replay_differs s _
  | watchedGiven hopen hkey hwatched hfree => rw [HostView.replay_schemaEvents]; rfl
  | propertyGiven hopen hkey hother => rfl
  | editRefused hopen hfixed => rfl
  | edited hopen hfree => exact HostView.replay_differs s _
  | cleared hopen => exact HostView.replay_differs s _
  | closed hopen => rfl

/-- A host that follows a run from its start is up to date at its end. -/
theorem run_replay (s : Session) (ops : List Operation) :
    (HostView.of s.node).replay (s.run ops).2 = HostView.of (s.run ops).1.node := by
  induction ops generalizing s with
  | nil => rfl
  | cons op rest ih =>
    rw [run_cons, HostView.replay_append, (step_handle s op).replay]
    exact ih (s.handle op).1

/-! ## Telling the properties -/

/-- Some event tells the properties. -/
def Announces (events : List Event) : Prop :=
  ∃ e ∈ events, ∃ properties, e.change = .propertiesChanged properties

theorem announces_schemaEvents (s : Session) (changed : Bool) :
    Announces (s.schemaEvents changed) ↔ changed = true := by
  constructor
  · rintro ⟨e, he, properties, hchange⟩
    rcases mem_schemaEvents.mp he with ⟨h, -⟩ | rfl | rfl
    · exact h
    · cases hchange
    · cases hchange
  · intro h
    exact ⟨s.propertiesEvent, mem_schemaEvents.mpr (.inl ⟨h, rfl⟩), _, rfl⟩

theorem announces_cons_groups (s : Session) (groups : List FieldGroup) (events : List Event) :
    Announces (s.event (.groupsArranged groups) :: events) ↔ Announces events := by
  constructor
  · rintro ⟨e, he, properties, hchange⟩
    rcases List.mem_cons.mp he with rfl | he
    · cases hchange
    · exact ⟨e, he, properties, hchange⟩
  · rintro ⟨e, he, properties, hchange⟩
    exact ⟨e, List.mem_cons_of_mem _ he, properties, hchange⟩

theorem differs_eq_true_iff (s s' : Session) :
    s.differs s' = true ↔ s'.node.properties ≠ s.node.properties :=
  decide_eq_true_iff

/-- An operation without such an event must not change the properties. -/
theorem announces_iff_of_same {s s' : Session} {events : List Event} (hnone : ¬ Announces events)
    (hsame : s'.node.properties = s.node.properties) :
    Announces events ↔ s'.node.properties ≠ s.node.properties :=
  ⟨fun h => absurd h hnone, fun h => absurd hsame h⟩

/-- **One operation tells the properties exactly when they have changed**, unless it gives a
value to a property other than that of the schema. -/
theorem Step.announces_iff {s s' : Session} {op : Operation} {events : List Event}
    (h : Step s op s' events)
    (hop : ∀ key value, op = .setProperty key value → s.schemaKey? = some key) :
    Announces events ↔ s'.node.properties ≠ s.node.properties := by
  have hquiet : ¬ Announces [] := by
    rintro ⟨e, he, -⟩
    cases he
  cases h with
  | ignored hclosed => exact announces_iff_of_same hquiet rfl
  | kept hopen hnothing =>
    refine announces_iff_of_same ?_ rfl
    rw [announces_cons_groups]
    exact hquiet
  | loaded hopen hdeclares =>
    rw [announces_cons_groups, announces_schemaEvents, differs_eq_true_iff]
  | lacked hopen =>
    refine announces_iff_of_same ?_ rfl
    rw [announces_cons_groups]
    rintro ⟨e, he, properties, hchange⟩
    rw [List.mem_singleton.mp he] at hchange
    cases hchange
  | schemaGiven hopen hkey => rw [announces_schemaEvents, differs_eq_true_iff]
  | watchedGiven hopen hkey hwatched hfree => exact absurd (hop _ _ rfl) hkey
  | propertyGiven hopen hkey hother => exact absurd (hop _ _ rfl) hkey
  | editRefused hopen hfixed => exact announces_iff_of_same hquiet rfl
  | edited hopen hfree => rw [announces_schemaEvents, differs_eq_true_iff]
  | cleared hopen => rw [announces_schemaEvents, differs_eq_true_iff]
  | closed hopen =>
    refine announces_iff_of_same ?_ rfl
    rintro ⟨e, he, properties, hchange⟩
    rw [List.mem_singleton.mp he] at hchange
    cases hchange

/-- **A host that follows the events is up to date after every operation**, and it is told the
properties exactly when they have changed: by every next operation but a value for a property
other than that of the schema. -/
theorem host_follows_run (id : SessionId) (node : Node) (settings : Settings)
    (ops : List Operation) :
    (HostView.of node).replay ((new id node settings).run ops).2
        = HostView.of ((new id node settings).run ops).1.node ∧
    ∀ op : Operation,
      (∀ key value, op = .setProperty key value →
        ((new id node settings).run ops).1.schemaKey? = some key) →
      (Announces (((new id node settings).run ops).1.handle op).2 ↔
        (((new id node settings).run ops).1.handle op).1.node.properties
          ≠ ((new id node settings).run ops).1.node.properties) := by
  constructor
  · exact run_replay (new id node settings) ops
  · intro op hop
    exact (step_handle _ op).announces_iff hop

/-- A stream whose schema is given as a value of its property. -/
theorem host_follows_stream :
    (streamSession.run [.configLoaded streamConfig]).1.schemaKey? = some "schema" ∧
    (Announces ((streamSession.run [.configLoaded streamConfig]).1.handle
        (.setProperty "schema" "x")).2 ↔
      ((streamSession.run [.configLoaded streamConfig]).1.handle
          (.setProperty "schema" "x")).1.node.properties
        ≠ (streamSession.run [.configLoaded streamConfig]).1.node.properties) := by
  have hloaded : (streamSession.run [.configLoaded streamConfig]).1
      = streamSession.loaded streamConfig :=
    congrArg Prod.fst (arrangeWith_eq streamSession streamConfig)
  have hkey : (streamSession.run [.configLoaded streamConfig]).1.schemaKey? = some "schema" := by
    rw [hloaded]
    rfl
  refine ⟨hkey, (host_follows_run _ _ _ _).2 _ ?_⟩
  intro key value hop
  cases hop
  exact hkey

end PipelineEditor.Session
