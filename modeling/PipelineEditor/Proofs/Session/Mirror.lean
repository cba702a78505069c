import PipelineEditor.Proofs.Session.Step

/-!
# The schema and its copy in a property

A session keeps the schema twice: at the node, and in the property that the configuration names,
if the backend declares that property.  Every path that writes one of the two goes through the
writing of both, and a path that does neither leaves both alone: this holds of a new
configuration with another property, of a value for any property, and of the early exits.

* `Copied` — the property of the schema, when there is one, holds the schema;
* `SlotFits` — the slot fits the configuration held and what the backend declares;
* `Mirrored` — both, as seen from the slot;
* `Step.copied`, `Step.slotFits` — **every operation keeps the two**;
* `run_mirrored` — **they hold in every state that operations lead to**.
-/

namespace PipelineEditor.Session

/-- The property of the schema, when there is one, holds the schema. -/
def Copied (s : Session) : Prop :=
  ∀ key, s.schemaKey? = some key → s.node.properties.get? key = s.node.schema

/-- The slot, when there is one, fits the configuration held and what the backend declares.  A
plugin without properties never gets a slot. -/
structure SlotFits (s : Session) : Prop where
  declares : ∀ slot, s.slot = some slot → s.node.declaresNothing = false
  declared : ∀ slot, s.slot = some slot →
    slot.declared = s.node.declarations.contains slot.key
  named : ∀ slot, s.slot = some slot →
    ∃ config, s.config = some config ∧ config.explicitKey? = some slot.key

/-- The slot of a session and the two copies of its schema agree: a declared slot's property has
the schema for its value, and is absent when there is no schema; the slot says whether the
backend declares its property; and its key is the one that the held configuration gives first. -/
structure Mirrored (s : Session) : Prop where
  copied : ∀ slot, s.slot = some slot → slot.declared = true →
    s.node.properties.get? slot.key = s.node.schema
  declared : ∀ slot, s.slot = some slot →
    slot.declared = s.node.declarations.contains slot.key
  named : ∀ slot, s.slot = some slot →
    ∃ config, s.config = some config ∧ config.explicitKey? = some slot.key

/-! ## The two copies -/

/-- Writing a schema makes the two copies the same, whatever they were before. -/
theorem withSchema_copied (s : Session) (schema : Option String) :
    (s.withSchema schema).Copied := by
  intro key hkey
  have hs : s.schemaKey? = some key := hkey
  exact get?_copied_self hs schema

/-- A value for another property touches neither copy. -/
theorem Copied.withProperty {s : Session} (hs : s.Copied) {key : String} (value : String)
    (hkey : s.schemaKey? ≠ some key) : (s.withProperty key value).Copied := by
  intro other hother
  have hschema : s.schemaKey? = some other := hother
  have hne : other ≠ key := by
    rintro rfl
    exact hkey hschema
  show (s.node.properties.insert key value).get? other = s.node.schema
  rw [SortedMap.get?_insert_of_ne _ _ hne]
  exact hs other hschema

/-- **Every operation keeps the two copies the same.** -/
theorem Step.copied {s s' : Session} {op : Operation} {events : List Event}
    (h : Step s op s' events) (hs : s.Copied) : s'.Copied := by
  cases h with
  | ignored hclosed => exact hs
  | kept hopen hnothing => exact hs
  | loaded hopen hdeclares => exact withSchema_copied _ _
  | lacked hopen => exact hs
  | schemaGiven hopen hkey => exact withSchema_copied _ _
  | watchedGiven hopen hkey hwatched hfree => exact withSchema_copied _ _
  | propertyGiven hopen hkey hother => exact hs.withProperty _ hkey
  | editRefused hopen hfixed => exact hs
  | edited hopen hfree => exact withSchema_copied _ _
  | cleared hopen => exact withSchema_copied _ _
  | closed hopen => exact hs

/-! ## The slot -/

/-- A configuration brings a slot that fits it. -/
theorem loaded_slotFits {s : Session} (hdeclares : s.node.declaresNothing = false)
    (config : WidgetConfig) : (s.loaded config).SlotFits := by
  have hslot : (s.loaded config).slot = (Form.arrange s.node config).slot := rfl
  refine ⟨fun _ _ => hdeclares, ?_, ?_⟩
  · intro slot h
    exact (Form.arrange_slot (hslot ▸ h)).1
  · intro slot h
    refine ⟨config, rfl, ?_⟩
    rw [← Form.arrange_slot_key s.node config, ← hslot, h]
    rfl

/-- **Every operation keeps the slot fitting.** -/
theorem Step.slotFits {s s' : Session} {op : Operation} {events : List Event}
    (h : Step s op s' events) (hs : s.SlotFits) : s'.SlotFits := by
  cases h with
  | ignored hclosed => exact hs
  | kept hopen hnothing =>
    -- the plugin declares nothing, so there is no slot that the new configuration could miss
    have hnone : ∀ slot, s.slot ≠ some slot := by
      intro slot h
      exact absurd (hnothing.symm.trans (hs.declares slot h)) (by decide)
    exact ⟨hs.declares, hs.declared, fun slot h => absurd h (hnone slot)⟩
  | loaded hopen hdeclares => exact loaded_slotFits hdeclares _
  | lacked hopen => exact hs
  | schemaGiven hopen hkey => exact ⟨hs.declares, hs.declared, hs.named⟩
  | watchedGiven hopen hkey hwatched hfree => exact ⟨hs.declares, hs.declared, hs.named⟩
  | propertyGiven hopen hkey hother => exact ⟨hs.declares, hs.declared, hs.named⟩
  | editRefused hopen hfixed => exact hs
  | edited hopen hfree => exact ⟨hs.declares, hs.declared, hs.named⟩
  | cleared hopen => exact ⟨hs.declares, hs.declared, hs.named⟩
  | closed hopen => exact ⟨hs.declares, hs.declared, hs.named⟩

/-! ## Reached states -/

theorem new_copied (id : SessionId) (node : Node) (settings : Settings) :
    (new id node settings).Copied := by
  intro key hkey
  cases hkey

theorem new_slotFits (id : SessionId) (node : Node) (settings : Settings) :
    (new id node settings).SlotFits := by
  refine ⟨?_, ?_, ?_⟩ <;> intro slot h <;> cases h

/-- **In every state that operations lead to, the slot and the two copies of the schema agree.** -/
theorem run_mirrored (id : SessionId) (node : Node) (settings : Settings) (ops : List Operation) :
    ((new id node settings).run ops).1.Mirrored := by
  have hcopied := run_preserves Step.copied (new_copied id node settings) ops
  have hfits := run_preserves Step.slotFits (new_slotFits id node settings) ops
  refine ⟨?_, hfits.declared, hfits.named⟩
  intro slot hslot hdeclared
  refine hcopied slot.key ?_
  rw [schemaKey?, hslot]
  exact if_pos hdeclared

end PipelineEditor.Session
