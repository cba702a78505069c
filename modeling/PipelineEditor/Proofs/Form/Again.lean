import PipelineEditor.Proofs.Form.DefaultValue

/-!
# Arranging a form again

The groups of a form and the slot of its schema depend on what the backend declares and on the
configuration, and not on the values of properties.  Only the patch looks at those: it fills what is
there and empty.  Since no default value is the empty text, what it has filled is no longer empty,
and what it has not filled would not be filled later either.  So a form's patch writes something
whenever it has an entry, and after it was written the form of the node has nothing left to write.

* `DefaultPatch.isEmpty_iff` — a patch without entries;
* `DefaultPatch.apply_apply` — **writing a patch a second time changes nothing**;
* `Form.arrange_patch_apply_changed` — a form's patch changes something unless it has no entry;
* `Form.arrange_patched_patch` — **after it, nothing is left to write**;
* `Form.arrange_again` — the form of a node whose default values were written.
-/

namespace PipelineEditor

namespace DefaultPatch

/-- A patch has no entry exactly when no key has a value in it. -/
theorem isEmpty_iff (p : DefaultPatch) : p.isEmpty = true ↔ ∀ key, p.set.get? key = none := by
  constructor
  · intro h key
    rw [SortedMap.get?, List.isEmpty_iff.mp h]
    rfl
  · intro h
    refine List.isEmpty_iff.mpr (List.eq_nil_iff_forall_not_mem.mpr fun entry hentry => ?_)
    have hget : p.set.get? entry.1 = some entry.2 := Entries.lookup_of_mem p.set.keys_nodup hentry
    rw [h entry.1] at hget
    cases hget

/-- A patch that leaves the properties as they are says so. -/
theorem apply_eq_of_same {p : DefaultPatch} {properties : SortedMap String}
    (h : (p.apply properties).1 = properties) : p.apply properties = (properties, false) := by
  have hflag : (p.apply properties).2 = false := by
    rw [← Bool.not_eq_true, apply_changed, ne_eq, Decidable.not_not]
    exact h
  exact Prod.ext h hflag

/-- **Writing a patch a second time changes nothing.** -/
theorem apply_apply (p : DefaultPatch) (properties : SortedMap String) :
    p.apply (p.apply properties).1 = ((p.apply properties).1, false) := by
  refine apply_eq_of_same (SortedMap.ext_get? fun key => ?_)
  rw [apply_get?, apply_get?]
  cases p.set.get? key <;> rfl

end DefaultPatch

namespace Form

variable (n : Node) (config : WidgetConfig)

/-- A property that a form's patch has a value for is there and empty, and the value is not. -/
theorem arrange_patch_fills {key value : String}
    (h : (arrange n config).patch.set.get? key = some value) :
    n.properties.get? key = some "" ∧ value ≠ "" := by
  rw [arrange_patch_get?, Option.ite_none_right_eq_some] at h
  obtain ⟨⟨-, -, hempty⟩, hdefault⟩ := h
  obtain ⟨g, -, htext⟩ := Option.bind_eq_some_iff.mp hdefault
  obtain ⟨d, -, htext⟩ := Option.bind_eq_some_iff.mp htext
  exact ⟨hempty, defaultText?_ne_empty htext⟩

/-- **A form's patch changes the properties unless it has no entry.** -/
theorem arrange_patch_apply_changed :
    ((arrange n config).patch.apply n.properties).2 = !(arrange n config).patch.isEmpty := by
  rw [Bool.eq_iff_iff, DefaultPatch.apply_changed, Bool.not_eq_true', ← Bool.not_eq_true,
    DefaultPatch.isEmpty_iff]
  refine not_congr ⟨fun hsame key => ?_, fun hnone => SortedMap.ext_get? fun key => ?_⟩
  · cases hvalue : (arrange n config).patch.set.get? key with
    | none => rfl
    | some value =>
      -- the value would have been there before, where the empty text was
      obtain ⟨hempty, hvalue'⟩ := arrange_patch_fills n config hvalue
      have hget := DefaultPatch.apply_get? (arrange n config).patch n.properties key
      rw [hsame, hvalue, hempty] at hget
      exact absurd (Option.some.inj hget).symm hvalue'
  · rw [DefaultPatch.apply_get?, hnone key]
    rfl

/-- The node with the default values of its form written into its properties. -/
def patched : Node :=
  { n with properties := ((arrange n config).patch.apply n.properties).1 }

theorem patched_get? (key : String) :
    (patched n config).properties.get? key =
      ((arrange n config).patch.set.get? key).or (n.properties.get? key) :=
  DefaultPatch.apply_get? _ _ key

/-- **After the default values were written, nothing is left to write.** -/
theorem arrange_patched_patch (key : String) :
    (arrange (patched n config) config).patch.set.get? key = none := by
  cases hagain : (arrange (patched n config) config).patch.set.get? key with
  | none => rfl
  | some value =>
    exfalso
    obtain ⟨hempty, -⟩ := arrange_patch_fills (patched n config) config hagain
    rw [patched_get?] at hempty
    cases hfirst : (arrange n config).patch.set.get? key with
    | some first =>
      -- it was filled the first time, so it is not empty now
      rw [hfirst] at hempty
      exact (arrange_patch_fills n config hfirst).2 (Option.some.inj hempty)
    | none =>
      -- it was as empty the first time, and would have been filled then
      rw [hfirst, Option.none_or] at hempty
      rw [arrange_patch_get?, Option.ite_none_right_eq_some] at hagain
      obtain ⟨⟨hdeclared, hother, -⟩, hdefault⟩ := hagain
      rw [arrange_patch_get?, if_pos ⟨hdeclared, hother, hempty⟩, hdefault] at hfirst
      cases hfirst

/-- **Arranging a form again after its default values were written.**  The groups and the slot of
the schema are the same, and there is nothing left to write.  Writing the default values has changed
something exactly when there were any; every property that had one has it now, and every other
property is as it was before, there or not.  Writing them once more changes nothing. -/
theorem arrange_again :
    (arrange (patched n config) config).groups = (arrange n config).groups ∧
    (arrange (patched n config) config).slot = (arrange n config).slot ∧
    (arrange (patched n config) config).patch.isEmpty = true ∧
    ((arrange n config).patch.apply n.properties).2 = !(arrange n config).patch.isEmpty ∧
    (∀ key value, (arrange n config).patch.set.get? key = some value →
      (patched n config).properties.get? key = some value) ∧
    (∀ key, (arrange n config).patch.set.get? key = none →
      (patched n config).properties.get? key = n.properties.get? key) ∧
    (arrange n config).patch.apply (patched n config).properties =
      ((patched n config).properties, false) := by
  refine ⟨rfl, rfl, ?_, arrange_patch_apply_changed n config, ?_, ?_,
    DefaultPatch.apply_apply _ _⟩
  · exact (DefaultPatch.isEmpty_iff _).mpr (arrange_patched_patch n config)
  · intro key value hvalue
    rw [patched_get?, hvalue]
    rfl
  · intro key hnone
    rw [patched_get?, hnone]
    rfl

end Form

end PipelineEditor
