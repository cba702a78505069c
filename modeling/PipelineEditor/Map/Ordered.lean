import PipelineEditor.Map.Entries

/-!
# Ordered maps: one value per key, keys in the order they first came

What a backend declares, and what a plugin declares about its output schema, is kept in the
order of declaration.  An ordered map is a list of entries whose keys are pairwise distinct.
Giving a known key a new value leaves the key where it stands; a new key goes to the end.

* `OrderedMap α` — the entries together with the proof that no key is repeated;
* `OrderedMap.insert`, `OrderedMap.ofList` — **a repeated key keeps its first place and its
  last value**;
* `get?_insert_self`, `get?_insert_of_ne` — insertion in terms of look-up;
* `keys_insert` — insertion in terms of the order of the keys.
-/

namespace PipelineEditor

/-- Entries with pairwise distinct keys. -/
structure OrderedMap (α : Type) where
  entries : List (String × α)
  distinct : (entries.map Prod.fst).Nodup

namespace OrderedMap

variable {α β : Type}

/-! ## Entry lists -/

/-- Replaces the value of a key where it stands, or adds the entry at the end. -/
def insertEntry (key : String) (value : α) : List (String × α) → List (String × α)
  | [] => [(key, value)]
  | (k, v) :: rest =>
    if key = k then (key, value) :: rest else (k, v) :: insertEntry key value rest

theorem keys_insertEntry (key : String) (value : α) (entries : List (String × α)) :
    (insertEntry key value entries).map Prod.fst
      = if key ∈ entries.map Prod.fst then entries.map Prod.fst
        else entries.map Prod.fst ++ [key] := by
  induction entries with
  | nil => simp [insertEntry]
  | cons head rest ih =>
    obtain ⟨k, v⟩ := head
    simp only [insertEntry]
    by_cases h : key = k
    · subst h; simp
    · have hmem : key ∈ ((k, v) :: rest).map Prod.fst ↔ key ∈ rest.map Prod.fst := by
        rw [List.map_cons, List.mem_cons]
        exact or_iff_right h
      rw [if_neg h, List.map_cons, ih]
      by_cases hr : key ∈ rest.map Prod.fst
      · rw [if_pos hr, if_pos (hmem.2 hr), List.map_cons]
      · rw [if_neg hr, if_neg (mt hmem.1 hr), List.map_cons, List.cons_append]

theorem insertEntry_distinct {key : String} {value : α} {entries : List (String × α)}
    (h : (entries.map Prod.fst).Nodup) :
    ((insertEntry key value entries).map Prod.fst).Nodup := by
  rw [keys_insertEntry]
  split
  · exact h
  next hk =>
    rw [List.nodup_append]
    refine ⟨h, by simp, fun a ha b hb => ?_⟩
    rw [List.mem_singleton.mp hb]
    rintro rfl
    exact hk ha

theorem lookup_insertEntry_self (key : String) (value : α) (entries : List (String × α)) :
    (insertEntry key value entries).lookup key = some value := by
  induction entries with
  | nil => simp [insertEntry]
  | cons head rest ih =>
    obtain ⟨k, v⟩ := head
    simp only [insertEntry]
    split
    · simp
    next hne => rw [Entries.lookup_cons_of_ne _ _ hne, ih]

theorem lookup_insertEntry_of_ne {key other : String} (value : α) (h : other ≠ key)
    (entries : List (String × α)) :
    (insertEntry key value entries).lookup other = entries.lookup other := by
  induction entries with
  | nil => simp [insertEntry, Entries.lookup_cons_of_ne _ _ h]
  | cons head rest ih =>
    obtain ⟨k, v⟩ := head
    simp only [insertEntry]
    split
    next heq => subst heq; rw [Entries.lookup_cons_of_ne _ _ h, Entries.lookup_cons_of_ne _ _ h]
    · simp [List.lookup_cons, ih]

/-- An entry of the list after an insertion is the new one or an old one. -/
theorem mem_insertEntry {key : String} {value : α} {entries : List (String × α)} {e : String × α}
    (h : e ∈ insertEntry key value entries) : e = (key, value) ∨ e ∈ entries := by
  induction entries with
  | nil => exact .inl (List.mem_singleton.mp h)
  | cons head rest ih =>
    obtain ⟨k, v⟩ := head
    simp only [insertEntry] at h
    split at h
    · rcases List.mem_cons.mp h with hnew | hrest
      · exact .inl hnew
      · exact .inr (List.mem_cons_of_mem _ hrest)
    · rcases List.mem_cons.mp h with hhead | hrest
      · exact .inr (hhead ▸ List.mem_cons_self)
      · rcases ih hrest with hnew | hold
        · exact .inl hnew
        · exact .inr (List.mem_cons_of_mem _ hold)

/-- Inserts the pairs one after the other into a list of entries. -/
def insertAll (pairs entries : List (String × α)) : List (String × α) :=
  pairs.foldl (fun es e => insertEntry e.1 e.2 es) entries

theorem insertAll_distinct {pairs entries : List (String × α)}
    (h : (entries.map Prod.fst).Nodup) : ((insertAll pairs entries).map Prod.fst).Nodup := by
  induction pairs generalizing entries with
  | nil => exact h
  | cons e rest ih => exact ih (insertEntry_distinct h)

/-- An entry of the list after the insertions was there before or is one of the pairs. -/
theorem mem_insertAll {pairs entries : List (String × α)} {e : String × α}
    (h : e ∈ insertAll pairs entries) : e ∈ entries ∨ e ∈ pairs := by
  induction pairs generalizing entries with
  | nil => exact .inl h
  | cons pair rest ih =>
    rcases ih h with hentry | hrest
    · rcases mem_insertEntry hentry with rfl | hold
      · exact .inr List.mem_cons_self
      · exact .inl hold
    · exact .inr (List.mem_cons_of_mem pair hrest)

/-- Entries whose keys are new and distinct are appended as they stand. -/
theorem insertAll_of_nodup {pairs entries : List (String × α)}
    (h : ((entries ++ pairs).map Prod.fst).Nodup) :
    insertAll pairs entries = entries ++ pairs := by
  induction pairs generalizing entries with
  | nil => simp [insertAll]
  | cons e rest ih =>
    have hnew : e.1 ∉ entries.map Prod.fst := by
      rw [List.map_append, List.nodup_append] at h
      exact fun he => h.2.2 e.1 he e.1 (by simp) rfl
    have happ : insertEntry e.1 e.2 entries = entries ++ [e] := by
      clear h ih
      induction entries with
      | nil => simp [insertEntry]
      | cons head tail iht =>
        obtain ⟨k, v⟩ := head
        have hne : e.1 ≠ k := by rintro rfl; exact hnew (by simp)
        have htail : e.1 ∉ tail.map Prod.fst := fun hm =>
          hnew (by rw [List.map_cons]; exact List.mem_cons_of_mem _ hm)
        simp [insertEntry, hne, iht htail]
    show insertAll rest (insertEntry e.1 e.2 entries) = entries ++ e :: rest
    rw [happ, ih (by simpa using h)]
    simp

/-! ## Maps -/

/-- The map without entries. -/
def empty : OrderedMap α := ⟨[], List.nodup_nil⟩

instance : Inhabited (OrderedMap α) := ⟨empty⟩

instance [DecidableEq α] : DecidableEq (OrderedMap α) := fun a b =>
  decidable_of_iff (a.entries = b.entries) ⟨fun h => by cases a; cases b; cases h; rfl, fun h => h ▸ rfl⟩

/-- The keys, in the order they first came. -/
def keys (m : OrderedMap α) : List String := m.entries.map Prod.fst

/-- Whether no key has a value. -/
def isEmpty (m : OrderedMap α) : Bool := m.entries.isEmpty

/-- The value of a key, if it has one. -/
def get? (m : OrderedMap α) (key : String) : Option α := m.entries.lookup key

/-- Whether a key has a value. -/
def contains (m : OrderedMap α) (key : String) : Bool := (m.get? key).isSome

/-- The entry that came first. -/
def first? (m : OrderedMap α) : Option (String × α) := m.entries.head?

/-- Gives a key a value: in its old place, or at the end when the key is new. -/
def insert (m : OrderedMap α) (key : String) (value : α) : OrderedMap α :=
  ⟨insertEntry key value m.entries, insertEntry_distinct m.distinct⟩

/-- Inserts the pairs one after the other. -/
def ofList (pairs : List (String × α)) : OrderedMap α :=
  ⟨insertAll pairs [], insertAll_distinct List.nodup_nil⟩

@[simp] theorem get?_insert_self (m : OrderedMap α) (key : String) (value : α) :
    (m.insert key value).get? key = some value :=
  lookup_insertEntry_self key value m.entries

theorem get?_insert_of_ne (m : OrderedMap α) {key other : String} (value : α) (h : other ≠ key) :
    (m.insert key value).get? other = m.get? other :=
  lookup_insertEntry_of_ne value h m.entries

theorem keys_insert (m : OrderedMap α) (key : String) (value : α) :
    (m.insert key value).keys = if key ∈ m.keys then m.keys else m.keys ++ [key] :=
  keys_insertEntry key value m.entries

theorem keys_nodup (m : OrderedMap α) : m.keys.Nodup := m.distinct

theorem mem_keys_iff (m : OrderedMap α) (key : String) : key ∈ m.keys ↔ m.contains key = true :=
  (Entries.lookup_isSome_iff key m.entries).symm

/-- **Reading a map's own entries gives the map again.** -/
theorem ofList_entries (m : OrderedMap α) : ofList m.entries = m := by
  cases m with
  | mk entries distinct =>
    have h : insertAll entries [] = entries := by
      rw [insertAll_of_nodup (by simpa using distinct), List.nil_append]
    simp only [ofList, h]

end OrderedMap

end PipelineEditor
