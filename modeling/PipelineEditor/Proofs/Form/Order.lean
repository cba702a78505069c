import Mathlib.Data.List.Basic
import PipelineEditor.Proofs.Form.Defaults

/-!
# The order of a form

The groups of a form come in the order in which the configuration shows them, and they are filled
in this order.  A group goes through its own list from front to back and takes what the groups
before it have left, so its fields stand where its list names them first.  Taking a field away
does not disturb the others: what is left in the end is in the order of declaration.  The state
that goes from group to group is the list of pending fields, and it is known after any number of
groups: the pending fields from before that none of these groups lists.

* `takeFields_order`, `takeFields_rest_sublist` — the order of what a group takes, and of what it
  leaves;
* `takeFields_congr` — **what a group takes depends only on the pending fields that it lists**;
* `placements_append`, `placements_rest_eq_filter`, `mem_placements_rest_iff` — filling the groups
  in two parts, and **what is pending after some groups**;
* `placements_of_apart` — groups that have no pending field in common;
* `placements_getElem?` — a group takes from what the groups before it have left;
* `FieldGroup.Fills`, `FieldGroup.Collects` — what a group of the layout holds, and the last group;
* `Form.arrange_in_order` — **the groups of a form, one by one, and the order of their fields**.
-/

namespace PipelineEditor

/-! ## One group -/

/-- What a group leaves is in the order of what was pending. -/
theorem takeFields_rest_sublist (listed pending : List String) :
    (takeFields listed pending).2.Sublist pending := by
  induction listed generalizing pending with
  | nil => exact List.Sublist.refl pending
  | cons field rest ih =>
    by_cases h : field ∈ pending
    · simp only [takeFields, if_pos h]
      exact (ih (pending.erase field)).trans List.erase_sublist
    · simp only [takeFields, if_neg h]
      exact ih pending

/-- **What a group takes depends only on which of its listed fields are pending.** -/
theorem takeFields_congr {listed pending others : List String} (hpending : pending.Nodup)
    (hothers : others.Nodup) (h : ∀ field ∈ listed, field ∈ pending ↔ field ∈ others) :
    (takeFields listed pending).1 = (takeFields listed others).1 := by
  induction listed generalizing pending others with
  | nil => rfl
  | cons field rest ih =>
    have hfield := h field List.mem_cons_self
    have hrest : ∀ f ∈ rest, f ∈ pending ↔ f ∈ others := fun f hf =>
      h f (List.mem_cons_of_mem field hf)
    by_cases hmem : field ∈ pending
    · simp only [takeFields, if_pos hmem, if_pos (hfield.mp hmem)]
      refine congrArg (field :: ·) (ih (hpending.erase field) (hothers.erase field) fun f hf => ?_)
      rw [hpending.mem_erase_iff, hothers.mem_erase_iff, hrest f hf]
    · simp only [takeFields, if_neg hmem, if_neg (mt hfield.mpr hmem)]
      exact ih hpending hothers hrest

/-- **What a group takes is in the order in which its list names it first.** -/
theorem takeFields_order {listed pending : List String} (hdistinct : pending.Nodup) :
    (takeFields listed pending).1.Pairwise fun a b => listed.idxOf a < listed.idxOf b := by
  induction listed generalizing pending with
  | nil => exact List.Pairwise.nil
  | cons field rest ih =>
    -- nothing that is taken from the rest of the list is the first field
    have hrest : ∀ {others : List String}, others.Nodup → field ∉ others →
        (takeFields rest others).1.Pairwise
          fun a b => (field :: rest).idxOf a < (field :: rest).idxOf b := by
      intro others hothers hnew
      refine (ih hothers).imp_of_mem fun ha hb hlt => ?_
      have hne : ∀ {c}, c ∈ (takeFields rest others).1 → field ≠ c := by
        rintro c hc rfl
        exact hnew ((mem_takeFields_iff _ _ _).mp hc).2
      rw [List.idxOf_cons_ne _ (hne ha), List.idxOf_cons_ne _ (hne hb)]
      exact Nat.succ_lt_succ hlt
    by_cases h : field ∈ pending
    · simp only [takeFields, if_pos h]
      refine List.pairwise_cons.mpr ⟨?_, hrest (hdistinct.erase field) hdistinct.not_mem_erase⟩
      intro c hc
      have hne : field ≠ c := by
        rintro rfl
        exact hdistinct.not_mem_erase ((mem_takeFields_iff _ _ _).mp hc).2
      rw [List.idxOf_cons_self, List.idxOf_cons_ne _ hne]
      exact Nat.succ_pos _
    · simp only [takeFields, if_neg h]
      exact hrest hdistinct h

example : takeFields ["b", "a", "b", "c"] ["a", "d", "b"] = (["b", "a"], ["d"]) := by decide

/-! ## All groups -/

/-- What the groups leave is in the order of what was pending. -/
theorem placements_rest_sublist (groups : List (String × GroupLayout)) (pending : List String) :
    (placements groups pending).2.Sublist pending := by
  induction groups generalizing pending with
  | nil => exact List.Sublist.refl pending
  | cons entry rest ih =>
    obtain ⟨name, layout⟩ := entry
    exact (ih _).trans (takeFields_rest_sublist layout.position pending)

/-- Groups may be filled in two parts, the second with what the first has left. -/
theorem placements_append (groups more : List (String × GroupLayout)) (pending : List String) :
    placements (groups ++ more) pending =
      ((placements groups pending).1 ++ (placements more (placements groups pending).2).1,
        (placements more (placements groups pending).2).2) := by
  induction groups generalizing pending with
  | nil => rfl
  | cons entry rest ih => simp only [List.cons_append, placements, ih]

/-- **What all groups leave**: the pending fields that none of them lists, in their order. -/
theorem placements_rest_eq_filter (groups : List (String × GroupLayout)) {pending : List String}
    (hdistinct : pending.Nodup) :
    (placements groups pending).2 =
      pending.filter fun field => groups.all fun g => !lists field g := by
  induction groups generalizing pending with
  | nil => simp [placements]
  | cons entry rest ih =>
    obtain ⟨name, layout⟩ := entry
    have hleft := hdistinct.sublist (takeFields_rest_sublist layout.position pending)
    simp only [placements]
    rw [ih hleft, takeFields_rest_eq_filter hdistinct, List.filter_filter]
    refine List.filter_congr fun field _ => ?_
    rw [List.all_cons, Bool.and_comm]
    simp [lists]

/-- **The groups leave the pending fields that none of them lists.** -/
theorem mem_placements_rest_iff {groups : List (String × GroupLayout)} {pending : List String}
    (hdistinct : pending.Nodup) (field : String) :
    field ∈ (placements groups pending).2 ↔
      field ∈ pending ∧ ∀ g ∈ groups, field ∉ g.2.position := by
  rw [placements_rest_eq_filter groups hdistinct, List.mem_filter, List.all_eq_true]
  simp [lists]

/-- **A group takes from what the groups before it have left.** -/
theorem placements_getElem? (groups : List (String × GroupLayout)) (pending : List String)
    (i : Nat) :
    (placements groups pending).1[i]? = groups[i]?.map fun g =>
      ⟨g.1, g.2, (takeFields g.2.position (placements (groups.take i) pending).2).1⟩ := by
  induction groups generalizing pending i with
  | nil => rfl
  | cons entry rest ih =>
    obtain ⟨name, layout⟩ := entry
    cases i with
    | zero => rfl
    | succ i =>
      simp only [placements, List.getElem?_cons_succ, List.take_succ_cons]
      exact ih _ i

/-- **Groups that have no pending field in common** take what each would take as the first. -/
theorem placements_of_apart {groups : List (String × GroupLayout)} {pending : List String}
    (hdistinct : pending.Nodup)
    (hapart : groups.Pairwise fun a b => ∀ field ∈ pending,
      field ∈ a.2.position → field ∉ b.2.position) :
    (placements groups pending).1 =
      groups.map fun g => ⟨g.1, g.2, (takeFields g.2.position pending).1⟩ := by
  induction groups generalizing pending with
  | nil => rfl
  | cons entry rest ih =>
    obtain ⟨name, layout⟩ := entry
    obtain ⟨hfirst, hrest⟩ := List.pairwise_cons.mp hapart
    have hleft := hdistinct.sublist (takeFields_rest_sublist layout.position pending)
    have hsub : ∀ field ∈ (takeFields layout.position pending).2, field ∈ pending := fun field hf =>
      (takeFields_rest_sublist layout.position pending).subset hf
    simp only [placements, List.map_cons]
    rw [ih hleft (hrest.imp fun h field hf => h field (hsub field hf))]
    refine congrArg (_ :: ·) (List.map_congr_left fun g hg => ?_)
    -- what the first group took is not listed by `g`
    rw [takeFields_congr hleft hdistinct fun field hlisted => ?_]
    rw [mem_takeFields_rest_iff hdistinct]
    exact ⟨And.left, fun hf => ⟨hf, fun hown => hfirst g hg field hf hown hlisted⟩⟩

/-! ## Forms -/

/-- The properties that are shown in some group: those that the backend declares, but for the one
that an explicit declaration of the output schema gives first. -/
def Node.Shows (n : Node) (config : WidgetConfig) (field : String) : Prop :=
  n.declarations.contains field = true ∧ config.explicitKey? ≠ some field

/-- What the group holds that a form has for the `i`-th entry of its layout: of the shown
properties those that the entry lists and no earlier one does, in the order in which they are
listed first. -/
structure FieldGroup.Fills (g : FieldGroup) (n : Node) (config : WidgetConfig) (i : Nat)
    (name : String) (layout : GroupLayout) : Prop where
  name : g.name = name
  display : g.display = layout.display
  holds : ∀ field, field ∈ g.position ↔ n.Shows config field ∧ field ∈ layout.position ∧
    ∀ earlier ∈ config.layout.shown.take i, field ∉ earlier.2.position
  order : g.position.Pairwise fun a b => layout.position.idxOf a < layout.position.idxOf b

/-- What the last group of a form holds: the shown properties that no entry of the layout lists,
in the order in which the backend declares them. -/
structure FieldGroup.Collects (g : FieldGroup) (n : Node) (config : WidgetConfig) : Prop where
  name : g.name = "generic"
  holds : ∀ field, field ∈ g.position ↔ n.Shows config field ∧
    ∀ entry ∈ config.layout.shown, field ∉ entry.2.position
  order : g.position.Sublist n.declarations.keys

namespace Form

/-- The fields that are pending when the group of the `i`-th entry has its turn. -/
def pendingAt (n : Node) (config : WidgetConfig) (i : Nat) : List String :=
  (placements (config.layout.shown.take i)
    (pendingFields n.declarations (arrange n config).slot)).2

variable (n : Node) (config : WidgetConfig)

theorem pendingAt_sublist (i : Nat) : (pendingAt n config i).Sublist n.declarations.keys := by
  have hpending : (pendingFields n.declarations (arrange n config).slot).Sublist
      n.declarations.keys := by
    cases (arrange n config).slot with
    | none => exact List.Sublist.refl _
    | some slot => exact List.erase_sublist
  exact (placements_rest_sublist _ _).trans hpending

theorem pendingAt_nodup (i : Nat) : (pendingAt n config i).Nodup :=
  n.declarations.keys_nodup.sublist (pendingAt_sublist n config i)

/-- **What is pending after some entries**: the shown properties that none of them lists. -/
theorem mem_pendingAt_iff (i : Nat) (field : String) :
    field ∈ pendingAt n config i ↔
      n.Shows config field ∧ ∀ earlier ∈ config.layout.shown.take i, field ∉ earlier.2.position := by
  rw [pendingAt, mem_placements_rest_iff (pendingFields_nodup _ _), mem_pendingFields_iff,
    arrange_slot_key]
  rfl

/-- The groups of a form for the entries of its layout. -/
def placed : List FieldGroup :=
  (placements config.layout.shown (pendingFields n.declarations (arrange n config).slot)).1.map
    (·.group n.declarations)

/-- The group that follows them, if there is one. -/
def last? : Option FieldGroup :=
  genericGroup? n.declarations (pendingAt n config config.layout.shown.length)

/-- The fields that all groups of a configuration leave. -/
def unplaced : List String :=
  (placements config.layout.shown (pendingFields n.declarations (arrange n config).slot)).2

theorem unplaced_eq_pendingAt :
    unplaced n config = pendingAt n config config.layout.shown.length := by
  rw [pendingAt, List.take_length, unplaced]

theorem unplaced_nodup : (unplaced n config).Nodup := by
  rw [unplaced_eq_pendingAt]
  exact pendingAt_nodup n config _

theorem mem_unplaced_iff (field : String) :
    field ∈ unplaced n config ↔
      n.Shows config field ∧ ∀ entry ∈ config.layout.shown, field ∉ entry.2.position := by
  rw [unplaced_eq_pendingAt, mem_pendingAt_iff, List.take_length]

theorem last?_eq : last? n config = genericGroup? n.declarations (unplaced n config) := by
  rw [last?, unplaced_eq_pendingAt]

theorem arrange_groups :
    (arrange n config).groups = placed n config ++ (last? n config).toList := by
  rw [last?_eq]
  rfl

/-- The headings are those of the names that are defined. -/
theorem placed_headings :
    (placed n config).map (fun g => (g.name, g.display)) =
      config.layout.position.filterMap fun name =>
        (config.layout.groups.get? name).map fun layout => (name, layout.display) := by
  have hplaced : (placed n config).map (fun g => (g.name, g.display)) =
      config.layout.shown.map fun entry => (entry.1, entry.2.display) := by
    refine List.ext_getElem? fun i => ?_
    rw [placed, List.getElem?_map, List.getElem?_map, placements_getElem?, List.getElem?_map]
    cases config.layout.shown[i]? <;> rfl
  rw [hplaced, Layout.shown, List.map_filterMap]
  refine congrArg (List.filterMap · _) (funext fun name => ?_)
  exact Option.map_map _ _ _

/-- **The group of an entry holds what it takes when it has its turn.** -/
theorem exists_placed_fills {i : Nat} {name : String} {layout : GroupLayout}
    (hentry : config.layout.shown[i]? = some (name, layout)) :
    ∃ g : FieldGroup, (placed n config)[i]? = some g ∧ g.Fills n config i name layout := by
  refine ⟨Placement.group ⟨name, layout, (takeFields layout.position (pendingAt n config i)).1⟩
    n.declarations, ?_, rfl, rfl, ?_, ?_⟩
  · rw [placed, List.getElem?_map, placements_getElem?, hentry]
    rfl
  · intro field
    show field ∈ (takeFields _ _).1 ↔ _
    rw [mem_takeFields_iff, mem_pendingAt_iff]
    exact and_left_comm
  · exact takeFields_order (pendingAt_nodup n config i)

/-- The last group is there exactly when something is left. -/
theorem last?_isSome_iff :
    (last? n config).isSome = true ↔
      ∃ field, n.Shows config field ∧ ∀ entry ∈ config.layout.shown, field ∉ entry.2.position := by
  have hsome : ∀ pending, (genericGroup? n.declarations pending).isSome = true ↔
      ∃ field, field ∈ pending := by
    intro pending
    cases pending <;> simp [genericGroup?]
  rw [last?_eq, hsome]
  exact exists_congr (mem_unplaced_iff n config)

theorem last?_collects {g : FieldGroup} (hg : last? n config = some g) : g.Collects n config := by
  obtain ⟨hname, hposition, -⟩ := genericGroup?_eq_some (last?_eq n config ▸ hg)
  refine ⟨hname, ?_, ?_⟩
  · intro field
    rw [hposition]
    exact mem_unplaced_iff n config field
  · rw [hposition, unplaced_eq_pendingAt]
    exact pendingAt_sublist n config _

/-- **The groups of a form, one by one, and the order of their fields.**  There is one group for
each name in the order of the layout that is defined there, with the heading of its definition.
It holds the shown properties that it lists and no earlier group does, in the order in which it
lists them first.  One more group follows exactly when some shown property is listed by no group;
it is named `generic` and holds these properties in the order of declaration. -/
theorem arrange_in_order :
    ∃ (configured : List FieldGroup) (generic : Option FieldGroup),
      (arrange n config).groups = configured ++ generic.toList ∧
      (configured.map fun g => (g.name, g.display)) =
        (config.layout.position.filterMap fun name =>
          (config.layout.groups.get? name).map fun layout => (name, layout.display)) ∧
      (∀ i name layout, config.layout.shown[i]? = some (name, layout) →
        ∃ g : FieldGroup, configured[i]? = some g ∧ g.Fills n config i name layout) ∧
      (generic.isSome = true ↔ ∃ field, n.Shows config field ∧
        ∀ entry ∈ config.layout.shown, field ∉ entry.2.position) ∧
      ∀ g, generic = some g → g.Collects n config := by
  refine ⟨placed n config, last? n config, arrange_groups n config, placed_headings n config,
    ?_, last?_isSome_iff n config, ?_⟩
  · intro i name layout hentry
    exact exists_placed_fills n config hentry
  · intro g hg
    exact last?_collects n config hg

end Form

end PipelineEditor
