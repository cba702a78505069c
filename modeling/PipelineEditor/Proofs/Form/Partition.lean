import PipelineEditor.Form.Arrange

/-!
# A form shares out the declared properties

Filling the groups moves fields from the pending list into groups and loses none of them: what
is taken, followed by what is left, is a rearrangement of what was pending.  So the groups of a
form, read one after the other, list every declared property once, the property of the schema
left out, and whatever a configuration repeats or invents has no influence on that.

* `WidgetConfig.explicitKey?` — the key that an explicit declaration gives first;
* `Partition` — **no field twice, every declared one but the one left out, and each group
  describes what it lists**;
* `takeFields_perm`, `placements_perm` — filling groups rearranges the pending fields;
* `Form.arrange_partition`, `Form.plain_partition` — forms share out the declared properties;
* `Form.arrange_slot_key`, `Form.arrange_slot` — what a form says about the schema's property.
-/

namespace PipelineEditor

/-! ## The key of an explicit declaration -/

/-- The key that an explicit declaration of the output schema gives first. -/
def WidgetConfig.explicitKey? (c : WidgetConfig) : Option String :=
  match c.schema with
  | some (.explicit properties) => properties.keys.head?
  | _ => none

theorem WidgetConfig.explicitKey?_eq (c : WidgetConfig) :
    c.explicitKey? = c.stored?.map Prod.fst := by
  unfold explicitKey? stored?
  split
  next properties hc =>
    rw [hc]
    show (properties.entries.map Prod.fst).head? = properties.entries.head?.map Prod.fst
    rw [List.head?_map]
  next hne =>
    cases hc : c.schema with
    | none => rfl
    | some d =>
      cases d with
      | implicit fields => rfl
      | explicit properties => exact absurd hc (hne properties)

/-! ## Sharing out -/

/-- The groups share out the declared properties but the one left out: read one after the other
they list no field twice and exactly these properties, and each group describes the fields that
it lists and no others. -/
structure Partition (groups : List FieldGroup) (declarations : Declarations)
    (leftOut : Option String) : Prop where
  distinct : (groups.flatMap FieldGroup.position).Nodup
  complete : ∀ field, field ∈ groups.flatMap FieldGroup.position ↔
    declarations.contains field = true ∧ leftOut ≠ some field
  described : ∀ g ∈ groups, ∀ field, g.fields.contains field = true ↔ field ∈ g.position

/-! ## Filling groups -/

/-- **Taking fields rearranges the pending ones**: nothing is lost and nothing comes twice. -/
theorem takeFields_perm (listed pending : List String) :
    ((takeFields listed pending).1 ++ (takeFields listed pending).2).Perm pending := by
  induction listed generalizing pending with
  | nil => exact List.Perm.refl _
  | cons field rest ih =>
    by_cases h : field ∈ pending
    · simp only [takeFields, if_pos h, List.cons_append]
      have htail := (ih (pending.erase field)).cons field
      exact htail.trans (List.perm_cons_erase h).symm
    · simp only [takeFields, if_neg h]
      exact ih pending

/-- **Filling groups rearranges the pending fields.** -/
theorem placements_perm (groups : List (String × GroupLayout)) (pending : List String) :
    ((placements groups pending).1.flatMap Placement.fields ++ (placements groups pending).2).Perm
      pending := by
  induction groups generalizing pending with
  | nil => exact List.Perm.refl _
  | cons entry rest ih =>
    obtain ⟨name, layout⟩ := entry
    have hfirst := takeFields_perm layout.position pending
    have hrest := ih (takeFields layout.position pending).2
    simp only [placements, List.flatMap_cons, List.append_assoc]
    exact (hrest.append_left _).trans hfirst

/-! ## Groups as they are shown -/

/-- A map made for a list of fields describes exactly these fields. -/
theorem contains_describe (fields : List String) (shown : String → ShownField) (field : String) :
    (SortedMap.ofList (fields.map fun f => (f, shown f))).contains field = true
      ↔ field ∈ fields := by
  rw [SortedMap.contains_ofList, List.map_map]
  simp [Function.comp_def]

/-- What a map made for a list of fields has for a field. -/
theorem get?_describe (fields : List String) (shown : String → ShownField) (field : String) :
    (SortedMap.ofList (fields.map fun f => (f, shown f))).get? field =
      if field ∈ fields then some (shown field) else none := by
  have hcontains := contains_describe fields shown field
  cases hget : (SortedMap.ofList (fields.map fun f => (f, shown f))).get? field with
  | none =>
    rw [SortedMap.contains, hget] at hcontains
    rw [if_neg fun h => Bool.false_ne_true (hcontains.mpr h)]
  | some value =>
    obtain ⟨f, hf, hpair⟩ := List.mem_map.mp (SortedMap.mem_of_get?_ofList hget)
    cases hpair
    rw [if_pos hf]

theorem Placement.group_described (p : Placement) (declarations : Declarations) (field : String) :
    (p.group declarations).fields.contains field = true
      ↔ field ∈ (p.group declarations).position :=
  contains_describe p.fields _ field

/-- A last group has its fixed name, lists what was pending, and shows it as what no group lists. -/
theorem genericGroup?_eq_some {declarations : Declarations} {pending : List String}
    {g : FieldGroup} (hg : genericGroup? declarations pending = some g) :
    g.name = "generic" ∧ g.position = pending ∧ g.fields = SortedMap.ofList
      (g.position.map fun f => (f, ShownField.unlisted declarations f)) := by
  unfold genericGroup? at hg
  split at hg
  · cases hg
  · cases hg
    exact ⟨rfl, rfl, rfl⟩

theorem genericGroup?_described {declarations : Declarations} {pending : List String}
    {g : FieldGroup} (hg : g ∈ (genericGroup? declarations pending).toList) (field : String) :
    g.fields.contains field = true ↔ field ∈ g.position := by
  obtain ⟨-, -, hfields⟩ := genericGroup?_eq_some (Option.mem_toList.mp hg)
  rw [hfields]
  exact contains_describe g.position _ field

theorem genericGroup?_position (declarations : Declarations) (pending : List String) :
    (genericGroup? declarations pending).toList.flatMap FieldGroup.position = pending := by
  cases pending with
  | nil => rfl
  | cons first rest => simp [genericGroup?]

/-- A field of the last group is one that was pending. -/
theorem mem_genericGroup?_iff (declarations : Declarations) (pending : List String)
    (field : String) :
    (∃ g, genericGroup? declarations pending = some g ∧ field ∈ g.position) ↔
      field ∈ pending := by
  have hposition : field ∈ (genericGroup? declarations pending).toList.flatMap FieldGroup.position
      ↔ field ∈ pending := by rw [genericGroup?_position]
  rw [← hposition, List.mem_flatMap]
  simp only [Option.mem_toList]

/-- The groups of filled placements and of what is left list a rearrangement of the pending
fields. -/
theorem groups_position_perm (declarations : Declarations) (groups : List (String × GroupLayout))
    (pending : List String) :
    (((placements groups pending).1.map (·.group declarations)
        ++ (genericGroup? declarations (placements groups pending).2).toList).flatMap
      FieldGroup.position).Perm pending := by
  rw [List.flatMap_append, genericGroup?_position, List.flatMap_map]
  exact placements_perm groups pending

/-! ## Forms -/

namespace Form

theorem pendingFields_nodup (declarations : Declarations) (slot : Option SchemaSlot) :
    (pendingFields declarations slot).Nodup := by
  cases slot with
  | none => exact declarations.keys_nodup
  | some s => exact declarations.keys_nodup.erase s.key

/-- What is to be placed in groups: the declared properties but the one of the slot. -/
theorem mem_pendingFields_iff (declarations : Declarations) (slot : Option SchemaSlot)
    (field : String) :
    field ∈ pendingFields declarations slot ↔
      declarations.contains field = true ∧ slot.map SchemaSlot.key ≠ some field := by
  cases slot with
  | none => simp [pendingFields, OrderedMap.mem_keys_iff]
  | some s =>
    simp only [pendingFields, declarations.keys_nodup.mem_erase_iff,
      OrderedMap.mem_keys_iff, Option.map_some, ne_eq, Option.some.injEq]
    constructor
    · rintro ⟨hne, hmem⟩
      exact ⟨hmem, fun h => hne h.symm⟩
    · rintro ⟨hmem, hne⟩
      exact ⟨fun h => hne h.symm, hmem⟩

/-- The slot of a form is that of the key that an explicit declaration gives first. -/
theorem arrange_slot_key (n : Node) (config : WidgetConfig) :
    (arrange n config).slot.map SchemaSlot.key = config.explicitKey? := by
  rw [config.explicitKey?_eq]
  show (config.stored?.map fun stored => slotFor n.declarations stored.1).map SchemaSlot.key = _
  rw [Option.map_map]
  rfl

/-- **A slot tells what the backend declares about its property.** -/
theorem arrange_slot {n : Node} {config : WidgetConfig} {slot : SchemaSlot}
    (h : (arrange n config).slot = some slot) :
    slot.declared = n.declarations.contains slot.key ∧
      slot.required
        = ((n.declarations.get? slot.key).map PropertyDeclaration.required).getD false := by
  have hmap : (config.stored?.map fun stored => slotFor n.declarations stored.1) = some slot := h
  obtain ⟨stored, -, rfl⟩ := Option.map_eq_some_iff.mp hmap
  exact ⟨rfl, rfl⟩

/-- **The form under a configuration shares out the declared properties**, the one that stores
an explicit schema left out. -/
theorem arrange_partition (n : Node) (config : WidgetConfig) :
    Partition (arrange n config).groups n.declarations config.explicitKey? := by
  have hperm := groups_position_perm n.declarations config.layout.shown
    (pendingFields n.declarations (arrange n config).slot)
  refine ⟨?_, ?_, ?_⟩
  · exact hperm.nodup_iff.mpr (pendingFields_nodup _ _)
  · intro field
    rw [← arrange_slot_key n config, ← mem_pendingFields_iff]
    exact hperm.mem_iff
  · intro g hg field
    rcases List.mem_append.mp hg with hplaced | hgeneric
    · obtain ⟨p, -, rfl⟩ := List.mem_map.mp hplaced
      exact p.group_described n.declarations field
    · exact genericGroup?_described hgeneric field

/-- **The form without a configuration shares out all declared properties.** -/
theorem plain_partition (n : Node) : Partition (plain n).groups n.declarations none := by
  have hposition : (plain n).groups.flatMap FieldGroup.position = n.declarations.keys :=
    genericGroup?_position n.declarations n.declarations.keys
  refine ⟨?_, ?_, ?_⟩
  · rw [hposition]
    exact n.declarations.keys_nodup
  · intro field
    rw [hposition, OrderedMap.mem_keys_iff]
    simp
  · intro g hg field
    exact genericGroup?_described hg field

end Form

end PipelineEditor
