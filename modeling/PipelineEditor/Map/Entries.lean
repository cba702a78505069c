/-!
# Entry lists and look-up

Both kinds of map keep their contents as a list of keys with values.  Look-up finds the first
entry of a key; the lemmas here say what look-up sees after an entry is put in front, after
entries are filtered out by their keys, or after all values are changed.
-/

namespace PipelineEditor.Entries

variable {α : Type}

theorem lookup_cons_self (key : String) (value : α) (rest : List (String × α)) :
    ((key, value) :: rest).lookup key = some value := by
  simp

theorem lookup_cons_of_ne {key other : String} (value : α) (rest : List (String × α))
    (h : other ≠ key) : ((key, value) :: rest).lookup other = rest.lookup other := by
  rw [List.lookup_cons, beq_eq_false_iff_ne.mpr h]

/-- No entry of a key remains once they are filtered out. -/
theorem lookup_filter_self (key : String) (entries : List (String × α)) :
    (entries.filter fun e => decide (e.1 ≠ key)).lookup key = none := by
  induction entries with
  | nil => rfl
  | cons head rest ih =>
    obtain ⟨k, v⟩ := head
    by_cases hk : k = key
    · subst hk
      simpa [List.filter_cons] using ih
    · have hne : key ≠ k := fun h => hk h.symm
      rw [List.filter_cons_of_pos (by simpa using hk), lookup_cons_of_ne _ _ hne, ih]

/-- Filtering by keys leaves the look-up of a key that is kept. -/
theorem lookup_filter (kept : String → Bool) {key : String} (h : kept key = true)
    (entries : List (String × α)) :
    (entries.filter fun e => kept e.1).lookup key = entries.lookup key := by
  induction entries with
  | nil => rfl
  | cons head rest ih =>
    obtain ⟨k, v⟩ := head
    by_cases hk : kept k = true
    · rw [List.filter_cons_of_pos (by exact hk), List.lookup_cons, List.lookup_cons, ih]
    · have hne : key ≠ k := fun heq => hk (heq ▸ h)
      rw [List.filter_cons_of_neg (by exact hk), ih, lookup_cons_of_ne _ _ hne]

/-- Filtering out one key leaves the look-ups of the others. -/
theorem lookup_filter_of_ne {key other : String} (h : other ≠ key) (entries : List (String × α)) :
    (entries.filter fun e => decide (e.1 ≠ key)).lookup other = entries.lookup other :=
  lookup_filter (fun k => decide (k ≠ key)) (decide_eq_true h) entries

theorem lookup_map {β : Type} (f : α → β) (key : String) (entries : List (String × α)) :
    (entries.map fun e => (e.1, f e.2)).lookup key = (entries.lookup key).map f := by
  induction entries with
  | nil => rfl
  | cons head rest ih =>
    obtain ⟨k, v⟩ := head
    by_cases h : key = k
    · subst h
      rw [List.map_cons, lookup_cons_self, lookup_cons_self, Option.map_some]
    · rw [List.map_cons, lookup_cons_of_ne _ _ h, lookup_cons_of_ne _ _ h, ih]

/-- A key is found exactly when an entry carries it. -/
theorem lookup_isSome_iff (key : String) (entries : List (String × α)) :
    (entries.lookup key).isSome ↔ key ∈ entries.map Prod.fst := by
  induction entries with
  | nil => simp
  | cons head rest ih =>
    obtain ⟨k, v⟩ := head
    by_cases h : key = k
    · subst h; simp
    · rw [lookup_cons_of_ne _ _ h, ih]; simp [h]

/-- An entry whose key no other entry has is the one that is found. -/
theorem lookup_of_mem {entries : List (String × α)} (hdistinct : (entries.map Prod.fst).Nodup)
    {e : String × α} (he : e ∈ entries) : entries.lookup e.1 = some e.2 := by
  induction entries with
  | nil => cases he
  | cons head rest ih =>
    obtain ⟨k, v⟩ := head
    obtain ⟨hnew, hrest⟩ := List.nodup_cons.mp hdistinct
    rcases List.mem_cons.mp he with rfl | hmem
    · exact lookup_cons_self k v rest
    · have hne : e.1 ≠ k := by
        intro h
        exact hnew (List.mem_map.mpr ⟨e, hmem, h⟩)
      rw [lookup_cons_of_ne v rest hne]
      exact ih hrest hmem

end PipelineEditor.Entries
