import PipelineEditor.Proofs.Session.Step

/-!
# The groups that a session announces

The host learns the groups of a form from an event.  Whatever has happened in a session before,
the groups of that event share out the properties that the backend declares: after a
configuration all but the property of an explicit schema, and without one all of them.  The
declarations are those of the node that the session was started with, since no operation touches
them.

* `Step.groups` — the groups that one operation announces;
* `groups_share_out` — **every form, and every event with groups, shares out the declared
  properties**.
-/

namespace PipelineEditor.Session

/-- Among the events after a schema was written there are no groups. -/
theorem groups_not_mem_schemaEvents {s : Session} {changed : Bool} {e : Event}
    {groups : List FieldGroup} (he : e ∈ s.schemaEvents changed) :
    e.change ≠ .groupsArranged groups := by
  rcases mem_schemaEvents.mp he with ⟨-, rfl⟩ | rfl | rfl <;> exact Change.noConfusion

/-- **The groups that one operation announces.** -/
theorem Step.groups {s s' : Session} {op : Operation} {events : List Event}
    (h : Step s op s' events) (hdeclares : s.node.declaresNothing = false) {e : Event}
    (he : e ∈ events) {groups : List FieldGroup} (hgroups : e.change = .groupsArranged groups) :
    (∃ config, op = .configLoaded config ∧
        Partition groups s.node.declarations config.explicitKey?) ∨
      (∃ reason, op = .configUnavailable reason ∧ Partition groups s.node.declarations none) := by
  cases h with
  | ignored hclosed => exact absurd he List.not_mem_nil
  | kept hopen hnothing => exact absurd (hnothing.symm.trans hdeclares) (by decide)
  | @loaded config hopen _ =>
    rcases List.mem_cons.mp he with rfl | he
    · cases hgroups
      exact .inl ⟨config, rfl, Form.arrange_partition s.node config⟩
    · exact absurd hgroups (groups_not_mem_schemaEvents he)
  | @lacked reason hopen =>
    rcases List.mem_cons.mp he with rfl | he
    · cases hgroups
      exact .inr ⟨reason, rfl, Form.plain_partition s.node⟩
    · rw [List.mem_singleton.mp he] at hgroups
      cases hgroups
  | schemaGiven hopen hkey => exact absurd hgroups (groups_not_mem_schemaEvents he)
  | watchedGiven hopen hkey hwatched hfree =>
    exact absurd hgroups (groups_not_mem_schemaEvents he)
  | propertyGiven hopen hkey hother =>
    rw [List.mem_singleton.mp he] at hgroups
    cases hgroups
  | editRefused hopen hfixed => exact absurd he List.not_mem_nil
  | edited hopen hfree => exact absurd hgroups (groups_not_mem_schemaEvents he)
  | cleared hopen => exact absurd hgroups (groups_not_mem_schemaEvents he)
  | closed hopen =>
    rw [List.mem_singleton.mp he] at hgroups
    cases hgroups

/-- **Every form shares out the declared properties, in every session.**  Under a configuration
the property that an explicit declaration gives first is left out, and the form names it in its
slot; without a configuration nothing is left out.  On a node with declared properties, every
event with groups that a session gives in the course of a run obeys the same law. -/
theorem groups_share_out :
    (∀ (n : Node) (config : WidgetConfig),
      Partition (Form.arrange n config).groups n.declarations config.explicitKey? ∧
      (Form.arrange n config).slot.map SchemaSlot.key = config.explicitKey? ∧
      ∀ slot, (Form.arrange n config).slot = some slot →
        slot.declared = n.declarations.contains slot.key ∧
        slot.required
          = ((n.declarations.get? slot.key).map PropertyDeclaration.required).getD false) ∧
    (∀ n : Node, Partition (Form.plain n).groups n.declarations none ∧ (Form.plain n).slot = none) ∧
    (∀ (id : SessionId) (node : Node) (settings : Settings) (before : List Operation)
      (op : Operation) (e : Event) (groups : List FieldGroup),
      node.declaresNothing = false →
      e ∈ (((new id node settings).run before).1.handle op).2 →
      e.change = .groupsArranged groups →
      (∃ config, op = .configLoaded config ∧
        Partition groups node.declarations config.explicitKey?) ∨
      (∃ reason, op = .configUnavailable reason ∧ Partition groups node.declarations none)) := by
  refine ⟨?_, ?_, ?_⟩
  · intro n config
    refine ⟨Form.arrange_partition n config, Form.arrange_slot_key n config, ?_⟩
    intro slot hslot
    exact Form.arrange_slot hslot
  · intro n
    exact ⟨Form.plain_partition n, rfl⟩
  · intro id node settings before op e groups hdeclares he hgroups
    have hnode := run_declarations (new id node settings) before
    have hstill : ((new id node settings).run before).1.node.declaresNothing = false := by
      rw [Node.declaresNothing, hnode]
      exact hdeclares
    have hstep := (step_handle _ op).groups hstill he hgroups
    rw [hnode] at hstep
    exact hstep

/-- A stream whose configuration lists its format twice, after the schema was cleared. -/
theorem groups_share_out_stream :
    streamNode.declaresNothing = false ∧
    (streamSession.run [.clearSchema]).1.event
        (.groupsArranged (Form.arrange streamNode streamConfig).groups)
      ∈ ((streamSession.run [.clearSchema]).1.handle (.configLoaded streamConfig)).2 ∧
    Partition (Form.arrange streamNode streamConfig).groups streamNode.declarations
      (some "schema") := by
  have hdeclares : streamNode.declaresNothing = false := rfl
  have he : (streamSession.run [.clearSchema]).1.event
      (.groupsArranged (Form.arrange streamNode streamConfig).groups)
      ∈ ((streamSession.run [.clearSchema]).1.handle (.configLoaded streamConfig)).2 :=
    List.mem_cons_self
  refine ⟨hdeclares, he, ?_⟩
  rcases groups_share_out.2.2 _ _ _ _ _ _ _ hdeclares he rfl with
    ⟨config, hconfig, hpartition⟩ | ⟨reason, hreason, -⟩
  · cases hconfig
    exact hpartition
  · cases hreason

end PipelineEditor.Session
