import PipelineEditor.Proofs.Form.Reorder

/-!
# A group at the end of a layout

Whoever puts one more group at the end of a layout wants the groups before it to stay as they are.
They do, whatever the new group lists: fields that are taken already, fields that nobody declares,
the property of the schema, or all that the group itself lists at another place of the order.  The
groups before have their turn first, and what they leave is what the last group showed.  The new
group takes from there, and what it takes is missing in the last group afterwards.

* `FieldGroup.without?`, `genericGroup?_without?` — **a group without some of its fields**, and the
  last group without some of them;
* `WidgetConfig.withLast`, `WidgetConfig.shown_withLast` — one more name at the end of the order;
* `WidgetConfig.groupOf?_withLast_of_some`, `WidgetConfig.groupOf?_withLast_of_none` — which fields
  it gets;
* `Form.placed_withLast`, `Form.last?_withLast`, `Form.patch_withLast_of_some` — the groups before
  it, the last group, and the default values;
* `Form.appended_group_draws` — **a group at the end takes from the last group only**.
-/

namespace PipelineEditor

/-! ## A group without some fields -/

/-- A group without some of its fields, or no group if none is left. -/
def FieldGroup.without? (g : FieldGroup) (fields : List String) : Option FieldGroup :=
  match g.position.filter fun field => field ∉ fields with
  | [] => none
  | rest => some { g with position := rest, fields := fields.foldl SortedMap.erase g.fields }

theorem SortedMap.get?_foldl_erase {α : Type} (m : SortedMap α) (keys : List String)
    (key : String) :
    (keys.foldl SortedMap.erase m).get? key = if key ∈ keys then none else m.get? key := by
  induction keys generalizing m with
  | nil => rfl
  | cons first rest ih =>
    rw [List.foldl_cons, ih]
    by_cases hfirst : key = first
    · subst hfirst
      rw [SortedMap.get?_erase_self, ite_self, if_pos List.mem_cons_self]
    · rw [SortedMap.get?_erase_of_ne _ hfirst]
      simp only [List.mem_cons, hfirst, false_or]

/-- The last group without some fields is the last group of the others. -/
theorem genericGroup?_without? (declarations : Declarations) (pending fields : List String) :
    (genericGroup? declarations pending).bind (·.without? fields) =
      genericGroup? declarations (pending.filter fun field => field ∉ fields) := by
  cases pending with
  | nil => rfl
  | cons first rest =>
    show FieldGroup.without? _ fields = _
    unfold FieldGroup.without? genericGroup?
    cases hleft : (first :: rest).filter fun field => field ∉ fields with
    | nil => rfl
    | cons other others =>
      simp only [Option.some.injEq, FieldGroup.mk.injEq, true_and]
      refine SortedMap.ext_get? fun field => ?_
      rw [SortedMap.get?_foldl_erase, get?_describe, get?_describe, ← hleft]
      by_cases hfield : field ∈ fields <;> simp [hfield]

/-! ## One more name -/

namespace WidgetConfig

/-- The configuration with one more name at the end of its order. -/
def withLast (c : WidgetConfig) (name : String) : WidgetConfig :=
  c.withOrder (c.layout.position ++ [name])

variable {c : WidgetConfig} {name : String} {layout : GroupLayout}

theorem shown_withLast (hlayout : c.layout.groups.get? name = some layout) :
    (c.withLast name).layout.shown = c.layout.shown ++ [(name, layout)] := by
  show (c.layout.position ++ [name]).filterMap _ = _
  rw [List.filterMap_append]
  refine congrArg (c.layout.shown ++ ·) (List.filterMap_cons_some ?_)
  show (c.layout.groups.get? name).map _ = _
  rw [hlayout, Option.map_some]

/-- A field whose group is known keeps it. -/
theorem groupOf?_withLast_of_some (hlayout : c.layout.groups.get? name = some layout)
    {field : String} {entry : String × GroupLayout} (h : c.groupOf? field = some entry) :
    (c.withLast name).groupOf? field = some entry := by
  rw [groupOf?, shown_withLast hlayout, List.find?_append]
  exact Option.or_eq_some_iff.mpr (.inl h)

/-- A field that no group lists gets the one at the end, if this lists it. -/
theorem groupOf?_withLast_of_none (hlayout : c.layout.groups.get? name = some layout)
    {field : String} (h : c.groupOf? field = none) {entry : String × GroupLayout}
    (hentry : (c.withLast name).groupOf? field = some entry) : field ∈ layout.position := by
  obtain ⟨hmember, hfield⟩ := mem_of_groupOf? hentry
  rw [shown_withLast hlayout] at hmember
  rcases List.mem_append.mp hmember with hold | hnew
  · exact absurd hfield (groupOf?_eq_none_iff.mp h entry hold)
  · rw [List.mem_singleton.mp hnew] at hfield
    exact hfield

end WidgetConfig

/-! ## Forms -/

namespace Form

section Appended

variable {n : Node} {config : WidgetConfig} {name : String} {layout : GroupLayout}

/-- The group that comes from a layout put at the end. -/
def appended (n : Node) (config : WidgetConfig) (name : String) (layout : GroupLayout) :
    FieldGroup :=
  Placement.group ⟨name, layout, (takeFields layout.position (unplaced n config)).1⟩ n.declarations

theorem mem_appended_iff (field : String) :
    field ∈ (appended n config name layout).position ↔
      field ∈ layout.position ∧ ∃ g, last? n config = some g ∧ field ∈ g.position := by
  rw [last?_eq, mem_genericGroup?_iff]
  exact mem_takeFields_iff _ _ _

/-- **A group at the end is filled after all others, from what they have left.** -/
theorem placements_withLast (hlayout : config.layout.groups.get? name = some layout) :
    placements (config.withLast name).layout.shown
        (pendingFields n.declarations (arrange n (config.withLast name)).slot) =
      ((placements config.layout.shown (pendingFields n.declarations (arrange n config).slot)).1
          ++ [⟨name, layout, (takeFields layout.position (unplaced n config)).1⟩],
        (takeFields layout.position (unplaced n config)).2) := by
  rw [WidgetConfig.shown_withLast hlayout, placements_append]
  rfl

theorem placed_withLast (hlayout : config.layout.groups.get? name = some layout) :
    placed n (config.withLast name) = placed n config ++ [appended n config name layout] := by
  rw [placed, placements_withLast hlayout, List.map_append]
  rfl

theorem last?_withLast (hlayout : config.layout.groups.get? name = some layout) :
    last? n (config.withLast name) =
      (last? n config).bind (·.without? (appended n config name layout).position) := by
  have htaken : ∀ field ∈ unplaced n config, decide (field ∉ layout.position) =
      decide (field ∉ (appended n config name layout).position) := by
    intro field hfield
    have hmember := mem_takeFields_iff layout.position (unplaced n config) field
    refine decide_eq_decide.mpr (not_congr ?_)
    exact ⟨fun hlisted => hmember.mpr ⟨hlisted, hfield⟩, fun h => (hmember.mp h).1⟩
  rw [last?_eq, last?_eq, genericGroup?_without?, unplaced, placements_withLast hlayout]
  refine congrArg (genericGroup? n.declarations) ?_
  rw [takeFields_rest_eq_filter (unplaced_nodup n config), List.filter_congr htaken]

/-- A default value is kept when a group is put at the end. -/
theorem patch_withLast_of_some (hlayout : config.layout.groups.get? name = some layout)
    {field value : String} (h : (arrange n config).patch.set.get? field = some value) :
    (arrange n (config.withLast name)).patch.set.get? field = some value := by
  rw [arrange_patch_get?, Option.ite_none_right_eq_some] at h ⊢
  obtain ⟨hwritten, hdefault⟩ := h
  obtain ⟨g, hgroup, htext⟩ := Option.bind_eq_some_iff.mp hdefault
  refine ⟨hwritten, ?_⟩
  rw [WidgetConfig.defaultOf?, WidgetConfig.groupOf?_withLast_of_some hlayout hgroup]
  exact htext

/-- Every other default value is one for a field that the group at the end takes. -/
theorem mem_appended_of_patch (hlayout : config.layout.groups.get? name = some layout)
    {field value : String}
    (h : (arrange n (config.withLast name)).patch.set.get? field = some value) :
    (arrange n config).patch.set.get? field = some value ∨
      field ∈ (appended n config name layout).position := by
  rw [arrange_patch_get?, Option.ite_none_right_eq_some] at h
  obtain ⟨⟨hdeclared, hother, hempty⟩, hdefault⟩ := h
  obtain ⟨g, hgroup, htext⟩ := Option.bind_eq_some_iff.mp hdefault
  cases hold : config.groupOf? field with
  | some old =>
    rw [WidgetConfig.groupOf?_withLast_of_some hlayout hold] at hgroup
    left
    rw [arrange_patch_get?, if_pos ⟨hdeclared, hother, hempty⟩, WidgetConfig.defaultOf?, hold,
      hgroup]
    exact htext
  | none =>
    -- no group listed it before, so it was left to the last group
    have hunlisted := WidgetConfig.groupOf?_eq_none_iff.mp hold
    right
    rw [mem_appended_iff, last?_eq, mem_genericGroup?_iff, mem_unplaced_iff]
    exact ⟨WidgetConfig.groupOf?_withLast_of_none hlayout hold hgroup, ⟨hdeclared, hother⟩,
      hunlisted⟩

/-- **A group at the end takes from the last group only.**  Let a name that is defined in the layout
be put at the end of its order, whether it stands there already or not.  The groups that the form had
for the order before come first and are unchanged.  Then there is one new group, and it holds those
fields of the last group that it lists.  The last group is what it was without these fields, and it
is missing if none remain.  Every default value from before is still written, every further one is
for a field of the new group, and the slot of the schema is the same. -/
theorem appended_group_draws (hlayout : config.layout.groups.get? name = some layout) :
    (arrange n config).groups = placed n config ++ (last? n config).toList ∧
    (arrange n (config.withLast name)).slot = (arrange n config).slot ∧
    ∃ new : FieldGroup, new.name = name ∧ new.display = layout.display ∧
      (arrange n (config.withLast name)).groups = placed n config ++
        new :: ((last? n config).bind (·.without? new.position)).toList ∧
      (∀ field, field ∈ new.position ↔ field ∈ layout.position ∧
        ∃ generic, last? n config = some generic ∧ field ∈ generic.position) ∧
      (∀ field value, (arrange n config).patch.set.get? field = some value →
        (arrange n (config.withLast name)).patch.set.get? field = some value) ∧
      ∀ field value, (arrange n (config.withLast name)).patch.set.get? field = some value →
        (arrange n config).patch.set.get? field = some value ∨ field ∈ new.position := by
  refine ⟨arrange_groups n config, rfl, appended n config name layout, rfl, rfl, ?_,
    mem_appended_iff, fun _ _ => patch_withLast_of_some hlayout,
    fun _ _ => mem_appended_of_patch hlayout⟩
  rw [arrange_groups, placed_withLast hlayout, last?_withLast hlayout, List.append_assoc]
  rfl

/-- The group `second` takes one of the two fields of the last group. -/
theorem appended_group_draws_second :
    let before := pairConfig.withOrder ["first"]
    let after := before.withLast "second"
    (arrange pairNode before).groups.map FieldGroup.position = [["b"], ["a", "c"]] ∧
      (arrange pairNode after).groups.map FieldGroup.position = [["b"], ["a"], ["c"]] ∧
      (arrange pairNode before).patch.set.get? "b" = some "x" ∧
      (arrange pairNode after).patch.set.get? "b" = some "x" := by
  intro before after
  have hsecond : before.layout.groups.get? "second" =
      some ⟨"Second", ["a", "unknown"], SortedMap.empty⟩ := SortedMap.get?_insert_self _ _ _
  have hvalue : (arrange pairNode before).patch.set.get? "b" = some "x" := by decide
  obtain ⟨-, -, new, -, -, -, -, hkept, -⟩ := appended_group_draws (n := pairNode) hsecond
  exact ⟨rfl, rfl, hvalue, hkept "b" "x" hvalue⟩

end Appended

end Form

end PipelineEditor
