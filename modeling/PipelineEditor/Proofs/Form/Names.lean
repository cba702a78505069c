import Mathlib.Data.List.Nodup
import PipelineEditor.Proofs.Form.Reorder

/-!
# Groups by their names

A group of a form is looked up by its name, and the first group with the name is the one that is
found.  The names come from the order of the layout, which is free to list a group twice or to define
one that is called `generic`, like the last group.  So the names tell the groups apart exactly when
the layout does neither, where the second only matters if there is a last group.  A group that is
listed again is hidden behind the one for its first place, and nothing is lost by that: the first has
taken every field there was.  A last group that is hidden is out of reach.

* `Layout.shownNames` — the names of the order that are defined;
* `Node.Unclaimed` — a property that no group lists;
* `Form.FoundByName` — **every group is found by its name**, the last one by `generic`;
* `Form.names_nodup_iff`, `Form.group?_of_nodup` — when the names are distinct, and what follows;
* `Form.exists_first_found` — **the group of a name that is found**;
* `Form.found_by_name_iff` — **when every group is found by its name**.
-/

namespace PipelineEditor

/-- The names of the order of a layout that are defined there. -/
def Layout.shownNames (l : Layout) : List String := l.position.filter l.groups.contains

theorem Layout.map_fst_shown (l : Layout) : l.shown.map Prod.fst = l.shownNames := by
  rw [shown, shownNames, List.map_filterMap, ← List.filterMap_eq_filter]
  refine congrArg (List.filterMap · l.position) (funext fun name => ?_)
  cases hget : l.groups.get? name <;> simp [Option.guard, SortedMap.contains, hget]

/-- Under one name a layout shows one group, wherever the name stands in the order. -/
theorem WidgetConfig.eq_of_mem_shown {c : WidgetConfig} {name : String} {g h : GroupLayout}
    (hg : (name, g) ∈ c.layout.shown) (hh : (name, h) ∈ c.layout.shown) : g = h := by
  have hfirst := ((c.mem_shown_iff _).mp hg).2
  have hsecond := ((c.mem_shown_iff _).mp hh).2
  exact Option.some.inj (hfirst.symm.trans hsecond)

/-- A shown property that no group of a configuration lists. -/
def Node.Unclaimed (n : Node) (config : WidgetConfig) (field : String) : Prop :=
  n.Shows config field ∧ ∀ entry ∈ config.layout.shown, field ∉ entry.2.position

namespace Form

/-! ## Looking up -/

/-- Where the names are distinct, a group is found by its name. -/
theorem group?_of_nodup {f : Form} (hdistinct : (f.groups.map FieldGroup.name).Nodup)
    {g : FieldGroup} (hg : g ∈ f.groups) : f.group? g.name = some g := by
  cases hfound : f.group? g.name with
  | none =>
    have hnone := List.find?_eq_none.mp hfound g hg
    exact absurd (decide_eq_true rfl) hnone
  | some other =>
    have hname : other.name = g.name := by simpa using List.find?_some hfound
    have hmem : other ∈ f.groups := List.mem_of_find?_eq_some hfound
    rw [List.inj_on_of_nodup_map hdistinct hmem hg hname]

variable (n : Node) (config : WidgetConfig)

/-! ## The names of a form -/

theorem placed_names : (placed n config).map FieldGroup.name = config.layout.shownNames := by
  have hheadings := congrArg (List.map Prod.fst) (placed_headings n config)
  rw [List.map_map] at hheadings
  rw [← config.layout.map_fst_shown, Layout.shown, List.map_filterMap]
  rw [List.map_filterMap] at hheadings
  refine Eq.trans hheadings (congrArg (List.filterMap · _) (funext fun name => ?_))
  rw [Option.map_map, Option.map_map]
  rfl

theorem exists_last_iff : (∃ g, last? n config = some g) ↔ ∃ field, n.Unclaimed config field := by
  rw [← Option.isSome_iff_exists]
  exact last?_isSome_iff n config

/-- **When the names of a form are distinct**: none is shown twice, and the one of the last group is
not shown if there is one. -/
theorem names_nodup_iff :
    ((arrange n config).groups.map FieldGroup.name).Nodup ↔
      config.layout.shownNames.Nodup ∧
        ((∃ field, n.Unclaimed config field) → "generic" ∉ config.layout.shownNames) := by
  rw [arrange_groups, List.map_append, placed_names, ← exists_last_iff]
  cases hlast : last? n config with
  | none => simp
  | some g =>
    have hname : g.name = "generic" := (last?_collects n config hlast).name
    simp only [Option.toList_some, List.map_cons, List.map_nil, hname,
      ← List.concat_eq_append, List.nodup_concat]
    simp [and_comm]

/-! ## The group that is found -/

/-- A group is found in front of which none has its name. -/
theorem group?_eq_some_of_first {f : Form} {i : Nat} {g : FieldGroup}
    (hg : f.groups[i]? = some g)
    (hfirst : ∀ earlier ∈ f.groups.take i, earlier.name ≠ g.name) : f.group? g.name = some g := by
  obtain ⟨hlength, hget⟩ := List.getElem?_eq_some_iff.mp hg
  refine List.find?_eq_some_iff_getElem.mpr ⟨decide_eq_true rfl, i, hlength, hget, ?_⟩
  intro j hj
  have hne := hfirst _ (List.mem_take_iff_getElem.mpr ⟨j, by omega, rfl⟩)
  simpa using hne

variable {n config}

/-- The entries of a form's groups come first. -/
theorem groups_getElem? {i : Nat} {g : FieldGroup} (hg : (placed n config)[i]? = some g) :
    (arrange n config).groups[i]? = some g := by
  obtain ⟨hlength, -⟩ := List.getElem?_eq_some_iff.mp hg
  rw [arrange_groups, List.getElem?_append_left hlength, hg]

/-- **The group of a name that is found** is that for its first place in the layout; the groups for
its later places hold no field. -/
theorem exists_first_found {i : Nat} {name : String} {layout : GroupLayout}
    (hentry : config.layout.shown[i]? = some (name, layout))
    (hfirst : ∀ earlier ∈ config.layout.shown.take i, earlier.1 ≠ name) :
    ∃ g : FieldGroup, (arrange n config).groups[i]? = some g ∧ g.Fills n config i name layout ∧
      (arrange n config).group? name = some g ∧
      ∀ j other later, i < j → config.layout.shown[j]? = some (name, other) →
        (arrange n config).groups[j]? = some later → later.position = [] := by
  obtain ⟨g, hplaced, hfills⟩ := exists_placed_fills n config hentry
  have hgroup := groups_getElem? hplaced
  refine ⟨g, hgroup, hfills, ?_, ?_⟩
  · rw [← hfills.name]
    refine group?_eq_some_of_first hgroup fun earlier hearlier => ?_
    rw [hfills.name]
    -- the groups in front of it have the names of the entries in front of its own
    have hnames : ((arrange n config).groups.take i).map FieldGroup.name =
        (config.layout.shown.take i).map Prod.fst := by
      obtain ⟨hlength, -⟩ := List.getElem?_eq_some_iff.mp hplaced
      rw [arrange_groups, List.take_append_of_le_length hlength.le, List.map_take, List.map_take,
        placed_names, Layout.map_fst_shown]
    have hmem : earlier.name ∈ (config.layout.shown.take i).map Prod.fst := by
      rw [← hnames]
      exact List.mem_map_of_mem hearlier
    obtain ⟨entry, hbefore, hname⟩ := List.mem_map.mp hmem
    rw [← hname]
    exact hfirst entry hbefore
  · intro j other later hlt hagain hlater
    obtain ⟨h, hplaced, hlaterFills⟩ := exists_placed_fills n config hagain
    have hsame : h = later := Option.some.inj ((groups_getElem? hplaced).symm.trans hlater)
    have hlayout : other = layout :=
      WidgetConfig.eq_of_mem_shown (List.mem_of_getElem? hagain) (List.mem_of_getElem? hentry)
    refine List.eq_nil_iff_forall_not_mem.mpr fun field hfield => ?_
    obtain ⟨-, hlisted, hnew⟩ := (hlaterFills.holds field).mp (hsame ▸ hfield)
    have hbefore : (name, layout) ∈ config.layout.shown.take j := by
      obtain ⟨hlength, hget⟩ := List.getElem?_eq_some_iff.mp hentry
      exact List.mem_take_iff_getElem.mpr ⟨i, by omega, hget⟩
    exact hnew _ hbefore (hlayout ▸ hlisted)

/-- The last group is found by its name where the layout shows no group with this name. -/
theorem exists_generic_found (hunclaimed : ∃ field, n.Unclaimed config field)
    (hfree : "generic" ∉ config.layout.shownNames) :
    ∃ g, (arrange n config).group? "generic" = some g ∧ g.Collects n config := by
  obtain ⟨g, hlast⟩ := (exists_last_iff n config).mpr hunclaimed
  have hcollects := last?_collects n config hlast
  refine ⟨g, ?_, hcollects⟩
  have hplaced : (placed n config).find? (fun h => h.name = "generic") = none := by
    refine List.find?_eq_none.mpr fun h hh hname => hfree ?_
    rw [← placed_names n config, ← of_decide_eq_true hname]
    exact List.mem_map_of_mem hh
  rw [group?, arrange_groups, List.find?_append, hplaced, hlast]
  simp [hcollects.name]

/-! ## All groups -/

variable (n config)

/-- Every group of a form is found by its name: no two have the same one, each is what is found under
its own, and the properties that no group lists are found under `generic`. -/
structure FoundByName : Prop where
  distinct : ((arrange n config).groups.map FieldGroup.name).Nodup
  found : ∀ g ∈ (arrange n config).groups, (arrange n config).group? g.name = some g
  generic : (∃ field, n.Unclaimed config field) →
    ∃ g, (arrange n config).group? "generic" = some g ∧ g.Collects n config

/-- **When every group of a form is found by its name**: exactly when the layout shows no name twice
and, if some property is left unclaimed, no group that is called `generic`.  Whatever the layout, a
name finds the group for its first place, and the groups for its later places hold no field; and
`generic` finds the unclaimed properties unless the layout shows a group with this name. -/
theorem found_by_name_iff :
    (FoundByName n config ↔ config.layout.shownNames.Nodup ∧
      ((∃ field, n.Unclaimed config field) → "generic" ∉ config.layout.shownNames)) ∧
    (∀ i name layout, config.layout.shown[i]? = some (name, layout) →
      (∀ earlier ∈ config.layout.shown.take i, earlier.1 ≠ name) →
      ∃ g : FieldGroup, (arrange n config).groups[i]? = some g ∧ g.Fills n config i name layout ∧
        (arrange n config).group? name = some g ∧
        ∀ j other later, i < j → config.layout.shown[j]? = some (name, other) →
          (arrange n config).groups[j]? = some later → later.position = []) ∧
    ((∃ field, n.Unclaimed config field) → "generic" ∉ config.layout.shownNames →
      ∃ g, (arrange n config).group? "generic" = some g ∧ g.Collects n config) := by
  refine ⟨⟨?_, ?_⟩, fun _ _ _ => exists_first_found, exists_generic_found⟩
  · intro h
    exact (names_nodup_iff n config).mp h.distinct
  · intro hnames
    have hdistinct := (names_nodup_iff n config).mpr hnames
    exact ⟨hdistinct, fun g hg => group?_of_nodup hdistinct hg,
      fun hunclaimed => exists_generic_found hunclaimed (hnames.2 hunclaimed)⟩

/-- A configuration with a group that is called like the last one. -/
def reservedConfig : WidgetConfig :=
  ⟨⟨["generic"], SortedMap.empty.insert "generic" ⟨"Own", ["b"], SortedMap.empty⟩⟩, none⟩

/-- A configuration that lists a group twice. -/
def repeatedConfig : WidgetConfig :=
  ⟨⟨["first", "first"], SortedMap.empty.insert "first" ⟨"First", ["b"], SortedMap.empty⟩⟩, none⟩

/-- Two groups with different names, and the last group: all three are found. -/
theorem found_by_name_iff_pair :
    FoundByName pairNode pairConfig ∧ (∃ g, (arrange pairNode pairConfig).group? "generic" = some g ∧
      g.position = ["c"]) ∧ ∃ g, (arrange pairNode pairConfig).group? "second" = some g ∧
      g.position = ["a"] := by
  have hfree : "generic" ∉ pairConfig.layout.shownNames := by decide
  exact ⟨(found_by_name_iff pairNode pairConfig).1.mpr ⟨by decide, fun _ => hfree⟩,
    ⟨_, rfl, rfl⟩, ⟨_, rfl, rfl⟩⟩

/-- Neither a group that is called like the last one nor one that is listed twice can be told apart
by its name. -/
theorem group_names_coincide :
    ¬ FoundByName pairNode reservedConfig ∧ ¬ FoundByName pairNode repeatedConfig := by
  constructor
  · intro h
    exact absurd h.distinct (by decide)
  · intro h
    exact absurd h.distinct (by decide)

end Form

end PipelineEditor
