import PipelineEditor.Proofs.Form.Partition

/-!
# Writing default values

A patch has one value for a key, so writing it is the same in every order, and what was written
for one key is not undone by a later one.  Hence the flag that the writing returns is exact: it
is set when, and only when, the properties have changed.  A form's patch has values only for
fields that the form places in a group, and so none for the property of the schema.

* `DefaultPatch.apply_get?` — the properties after a patch, key by key;
* `DefaultPatch.apply_changed` — **the flag says whether the properties have changed**;
* `Form.mem_placed` — a field that is placed was pending;
* `Form.arrange_patch_key`, `Form.arrange_patch_slot` — **a form's patch stays away from the
  property of the schema**.
-/

namespace PipelineEditor

/-! ## Properties after a patch -/

namespace DefaultPatch

/-- Writing an entry is an insertion, whether the flag gets set or not. -/
theorem write_fst (state : SortedMap String × Bool) (entry : String × String) :
    (write state entry).1 = state.1.insert entry.1 entry.2 := by
  unfold write
  split
  next h => exact (SortedMap.insert_eq_self h).symm
  · rfl

/-- Distinct entries written one after the other are all there in the end. -/
theorem foldl_write_get? {entries : List (String × String)}
    (hdistinct : (entries.map Prod.fst).Nodup) (state : SortedMap String × Bool) (key : String) :
    (entries.foldl write state).1.get? key = (entries.lookup key).or (state.1.get? key) := by
  induction entries generalizing state with
  | nil => rfl
  | cons entry rest ih =>
    obtain ⟨k, v⟩ := entry
    obtain ⟨hnew, hrest⟩ := List.nodup_cons.mp hdistinct
    rw [List.foldl_cons, ih hrest, write_fst]
    by_cases hk : key = k
    · subst hk
      have hnone : rest.lookup key = none := by
        rw [← Option.not_isSome_iff_eq_none, Entries.lookup_isSome_iff]
        exact hnew
      rw [hnone, SortedMap.get?_insert_self, Entries.lookup_cons_self]
      rfl
    · rw [SortedMap.get?_insert_of_ne _ _ hk, Entries.lookup_cons_of_ne _ _ hk]

/-- The flag after writing distinct entries: it was set before, or the properties differ. -/
theorem foldl_write_changed {entries : List (String × String)}
    (hdistinct : (entries.map Prod.fst).Nodup) (state : SortedMap String × Bool) :
    (entries.foldl write state).2 = true ↔
      state.2 = true ∨ (entries.foldl write state).1 ≠ state.1 := by
  induction entries generalizing state with
  | nil => simp
  | cons entry rest ih =>
    obtain ⟨k, v⟩ := entry
    have hrest := (List.nodup_cons.mp hdistinct).2
    by_cases h : state.1.get? k = some v
    · have hsame : write state (k, v) = state := if_pos h
      rw [List.foldl_cons, hsame]
      exact ih hrest state
    · have hset : (write state (k, v)).2 = true := by rw [write, if_neg h]
      have hflag : (((k, v) :: rest).foldl write state).2 = true := by
        rw [List.foldl_cons]
        exact (ih hrest _).mpr (.inl hset)
      -- the value written for `k` is still there, and it is not the one from before
      have hdiffers : (((k, v) :: rest).foldl write state).1 ≠ state.1 := by
        intro heq
        apply h
        rw [← heq, foldl_write_get? hdistinct, Entries.lookup_cons_self]
        rfl
      exact ⟨fun _ => .inr hdiffers, fun _ => hflag⟩

/-- **The properties after a patch**: its value where it has one, else the value from before. -/
theorem apply_get? (p : DefaultPatch) (properties : SortedMap String) (key : String) :
    (p.apply properties).1.get? key = (p.set.get? key).or (properties.get? key) :=
  foldl_write_get? p.set.keys_nodup (properties, false) key

/-- **The flag says whether the properties have changed.** -/
theorem apply_changed (p : DefaultPatch) (properties : SortedMap String) :
    (p.apply properties).2 = true ↔ (p.apply properties).1 ≠ properties := by
  have h := foldl_write_changed p.set.keys_nodup (properties, false)
  simp only [Bool.false_eq_true, false_or] at h
  exact h

end DefaultPatch

/-! ## The patch of a form -/

/-- A default value is one for the field it was looked up for. -/
theorem GroupLayout.defaultFor?_key {g : GroupLayout} {properties : SortedMap String}
    {field : String} {entry : String × String} (h : g.defaultFor? properties field = some entry) :
    entry.1 = field := by
  unfold GroupLayout.defaultFor? at h
  split at h
  · split at h
    · cases h
      rfl
    · cases h
  · cases h

namespace Form

/-- A field that is placed in a group was pending. -/
theorem mem_placed {groups : List (String × GroupLayout)} {pending : List String} {p : Placement}
    {field : String} (hp : p ∈ (placements groups pending).1) (hf : field ∈ p.fields) :
    field ∈ pending := by
  refine (placements_perm groups pending).mem_iff.mp ?_
  exact List.mem_append_left _ (List.mem_flatMap.mpr ⟨p, hp, hf⟩)

/-- **A form's patch has values only for fields that can be placed**: declared ones other than
the property of the schema. -/
theorem arrange_patch_key {n : Node} {config : WidgetConfig} {field : String}
    (h : (arrange n config).patch.set.contains field = true) :
    n.declarations.contains field = true ∧ config.explicitKey? ≠ some field := by
  have hmem := (SortedMap.contains_ofList _ _).mp h
  obtain ⟨entry, hentry, rfl⟩ := List.mem_map.mp hmem
  obtain ⟨p, hp, hdefault⟩ := List.mem_flatMap.mp hentry
  obtain ⟨f, hf, hfor⟩ := List.mem_filterMap.mp hdefault
  rw [GroupLayout.defaultFor?_key hfor, ← arrange_slot_key n config]
  exact (mem_pendingFields_iff _ _ _).mp (mem_placed hp hf)

/-- **A form's patch has no value for the property of its slot.** -/
theorem arrange_patch_slot {n : Node} {config : WidgetConfig} {slot : SchemaSlot}
    (h : (arrange n config).slot = some slot) :
    (arrange n config).patch.set.get? slot.key = none := by
  rw [← Option.not_isSome_iff_eq_none]
  intro hsome
  have hkey := arrange_slot_key n config
  rw [h] at hkey
  exact (arrange_patch_key hsome).2 hkey.symm

end Form

end PipelineEditor
