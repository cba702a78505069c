import PipelineEditor.Proofs.Form.Patch

/-!
# The default value of a field

A field may be listed by several groups of a configuration, each with a default value of its own.
It is placed in the first of them, so the default value of that group is the one that counts, and
it is written only into a property that is there and empty.

* `WidgetConfig.groupOf?`, `WidgetConfig.defaultOf?` — the first group that lists a field, and
  the default value that it has there;
* `mem_takeFields_iff`, `takeFields_rest_eq_filter` — a group takes the pending fields among those
  that it lists, and leaves the others in their order;
* `placements_first`, `exists_placement` — **a pending field is placed in the first group that
  lists it**, and in no other;
* `Form.arrange_patch_get?` — **the patch of a form, field by field**.
-/

namespace PipelineEditor

/-! ## The group of a field -/

/-- Whether a group lists a field. -/
def lists (field : String) (g : String × GroupLayout) : Bool := decide (field ∈ g.2.position)

namespace WidgetConfig

/-- The first group that lists a field, with its name. -/
def groupOf? (c : WidgetConfig) (field : String) : Option (String × GroupLayout) :=
  c.layout.shown.find? (lists field)

/-- The default value of a field: the one that it has in the first group that lists it. -/
def defaultOf? (c : WidgetConfig) (field : String) : Option String :=
  (c.groupOf? field).bind fun g => (g.2.widgetOf field).default?.bind defaultText?

variable {c : WidgetConfig} {field : String}

/-- The group of a field is shown and lists the field. -/
theorem mem_of_groupOf? {entry : String × GroupLayout} (h : c.groupOf? field = some entry) :
    entry ∈ c.layout.shown ∧ field ∈ entry.2.position := by
  have hlists : lists field entry = true := List.find?_some h
  exact ⟨List.mem_of_find?_eq_some h, of_decide_eq_true hlists⟩

/-- A field has no group if no group that is shown lists it. -/
theorem groupOf?_eq_none_iff :
    c.groupOf? field = none ↔ ∀ entry ∈ c.layout.shown, field ∉ entry.2.position := by
  rw [groupOf?, List.find?_eq_none]
  simp [lists]

end WidgetConfig

/-- A group takes the pending fields among those that it lists. -/
theorem mem_takeFields_iff (listed pending : List String) (field : String) :
    field ∈ (takeFields listed pending).1 ↔ field ∈ listed ∧ field ∈ pending := by
  induction listed generalizing pending with
  | nil => simp [takeFields]
  | cons first rest ih =>
    by_cases hfirst : first ∈ pending
    · simp only [takeFields, if_pos hfirst, List.mem_cons, ih]
      by_cases hfield : field = first
      · simp [hfield, hfirst]
      · simp [hfield, List.mem_erase_of_ne hfield]
    · simp only [takeFields, if_neg hfirst, List.mem_cons, ih]
      constructor
      · rintro ⟨hrest, hpending⟩
        exact ⟨.inr hrest, hpending⟩
      · rintro ⟨rfl | hrest, hpending⟩
        · exact absurd hpending hfirst
        · exact ⟨hrest, hpending⟩

/-- **What a group leaves**: the pending fields that it does not list, in their order. -/
theorem takeFields_rest_eq_filter {listed pending : List String} (hdistinct : pending.Nodup) :
    (takeFields listed pending).2 = pending.filter fun field => field ∉ listed := by
  induction listed generalizing pending with
  | nil => exact (List.filter_eq_self.mpr fun _ _ => decide_eq_true List.not_mem_nil).symm
  | cons field rest ih =>
    by_cases h : field ∈ pending
    · simp only [takeFields, if_pos h]
      rw [ih (hdistinct.erase field), hdistinct.erase_eq_filter, List.filter_filter]
      refine List.filter_congr fun other _ => ?_
      by_cases hother : other = field <;> simp [hother]
    · simp only [takeFields, if_neg h]
      rw [ih hdistinct]
      refine List.filter_congr fun other hother => ?_
      have hne : other ≠ field := fun heq => h (heq ▸ hother)
      simp [hne]

/-- A group leaves the pending fields that it does not list. -/
theorem mem_takeFields_rest_iff {listed pending : List String} (hdistinct : pending.Nodup)
    (field : String) :
    field ∈ (takeFields listed pending).2 ↔ field ∈ pending ∧ field ∉ listed := by
  rw [takeFields_rest_eq_filter hdistinct, List.mem_filter, decide_eq_true_eq]

/-- **A field is placed in the first group that lists it.** -/
theorem placements_first {groups : List (String × GroupLayout)} {pending : List String}
    (hdistinct : pending.Nodup) {p : Placement} (hp : p ∈ (placements groups pending).1)
    {field : String} (hf : field ∈ p.fields) :
    groups.find? (lists field) = some (p.name, p.layout) := by
  induction groups generalizing pending with
  | nil => cases hp
  | cons entry rest ih =>
    obtain ⟨name, layout⟩ := entry
    rcases List.mem_cons.mp hp with rfl | hmore
    · have hlisted := ((mem_takeFields_iff layout.position pending field).mp hf).1
      have hfirst : lists field (name, layout) = true := decide_eq_true hlisted
      exact List.find?_cons_of_pos hfirst
    · have hleft : field ∈ (takeFields layout.position pending).2 := Form.mem_placed hmore hf
      have hother : ¬ lists field (name, layout) = true := fun h =>
        ((mem_takeFields_rest_iff hdistinct field).mp hleft).2 (of_decide_eq_true h)
      have hperm := takeFields_perm layout.position pending
      rw [List.find?_cons_of_neg hother]
      exact ih (List.nodup_append.mp (hperm.nodup_iff.mpr hdistinct)).2.1 hmore

/-- A pending field that some group lists is placed in the first such group. -/
theorem exists_placement {groups : List (String × GroupLayout)} {pending : List String}
    {field : String} (hf : field ∈ pending) {g : String × GroupLayout}
    (hg : groups.find? (lists field) = some g) :
    ∃ p ∈ (placements groups pending).1, p.layout = g.2 ∧ field ∈ p.fields := by
  induction groups generalizing pending with
  | nil => cases hg
  | cons entry rest ih =>
    obtain ⟨name, layout⟩ := entry
    by_cases hlists : lists field (name, layout) = true
    · rw [List.find?_cons_of_pos hlists] at hg
      cases hg
      have htaken := (mem_takeFields_iff layout.position pending field).mpr
        ⟨of_decide_eq_true hlists, hf⟩
      exact ⟨_, List.mem_cons_self, rfl, htaken⟩
    · rw [List.find?_cons_of_neg hlists] at hg
      have hleft : field ∈ (takeFields layout.position pending).2 := by
        rcases List.mem_append.mp
          ((takeFields_perm layout.position pending).mem_iff.mpr hf) with htaken | hleft
        · exact absurd (decide_eq_true ((mem_takeFields_iff _ _ _).mp htaken).1) hlists
        · exact hleft
      obtain ⟨p, hp, hlayout, hfield⟩ := ih hleft hg
      exact ⟨p, List.mem_cons_of_mem _ hp, hlayout, hfield⟩

/-! ## The patch of a form -/

/-- What a group writes into a property: its default value for the field, if the property is
there and empty. -/
theorem GroupLayout.defaultFor?_eq_some_iff {g : GroupLayout} {properties : SortedMap String}
    {field : String} {entry : String × String} :
    g.defaultFor? properties field = some entry ↔
      entry.1 = field ∧ properties.get? field = some "" ∧
        (g.widgetOf field).default?.bind defaultText? = some entry.2 := by
  obtain ⟨key, value⟩ := entry
  unfold defaultFor?
  cases (g.widgetOf field).default?.bind defaultText? with
  | none => simp
  | some text =>
    by_cases hempty : properties.get? field = some ""
    · simp [hempty, eq_comm]
    · simp [hempty]

namespace Form

/-- **The patch of a form has a value for a field** exactly when the field is declared and not the
one that stores the schema, its property is there and empty, and the first group that lists it
has a default value for it, which is then the value. -/
theorem arrange_patch_get? (n : Node) (config : WidgetConfig) (field : String) :
    (arrange n config).patch.set.get? field =
      if n.declarations.contains field = true ∧ config.explicitKey? ≠ some field ∧
        n.properties.get? field = some "" then config.defaultOf? field else none := by
  have hdistinct := pendingFields_nodup n.declarations (arrange n config).slot
  have hpending := mem_pendingFields_iff n.declarations (arrange n config).slot field
  rw [arrange_slot_key] at hpending
  cases hget : (arrange n config).patch.set.get? field with
  | some value =>
    obtain ⟨p, hp, hdefault⟩ := List.mem_flatMap.mp (SortedMap.mem_of_get?_ofList hget)
    obtain ⟨f, hf, hfor⟩ := List.mem_filterMap.mp hdefault
    obtain ⟨rfl, hempty, htext⟩ := GroupLayout.defaultFor?_eq_some_iff.mp hfor
    obtain ⟨hdeclared, hother⟩ := hpending.mp (mem_placed hp hf)
    rw [if_pos ⟨hdeclared, hother, hempty⟩, WidgetConfig.defaultOf?, WidgetConfig.groupOf?,
      placements_first hdistinct hp hf]
    exact htext.symm
  | none =>
    split
    next hcond =>
      obtain ⟨hdeclared, hother, hempty⟩ := hcond
      cases hvalue : config.defaultOf? field with
      | none => rfl
      | some value =>
        exfalso
        obtain ⟨g, hgroup, htext⟩ := Option.bind_eq_some_iff.mp hvalue
        obtain ⟨p, hp, hlayout, hf⟩ :=
          exists_placement (hpending.mpr ⟨hdeclared, hother⟩) hgroup
        have hfor : p.layout.defaultFor? n.properties field = some (field, value) := by
          rw [hlayout]
          exact GroupLayout.defaultFor?_eq_some_iff.mpr ⟨rfl, hempty, htext⟩
        have hdefault : (field, value) ∈ p.defaults n.properties :=
          List.mem_filterMap.mpr ⟨field, hf, hfor⟩
        have hpair := List.mem_flatMap (f := (·.defaults n.properties)) |>.mpr ⟨p, hp, hdefault⟩
        have hcontains := (SortedMap.contains_ofList _ field).mpr
          (List.mem_map.mpr ⟨(field, value), hpair, rfl⟩)
        exact absurd hget (Option.isSome_iff_ne_none.mp hcontains)
    · rfl

end Form

end PipelineEditor
