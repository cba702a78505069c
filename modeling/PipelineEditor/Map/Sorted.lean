import PipelineEditor.Map.Entries

/-!
# Sorted maps: one value per key, keys in code point order

Property bags, widget attributes and group definitions are shown and written in the order of
their keys, whatever order they were given in.  A sorted map is a list of entries whose keys
strictly increase, so the order and the absence of repetition are part of the type and two
maps with the same look-ups are the same map.

* `SortedMap α` — the entries together with the proof that their keys increase;
* `SortedMap.insert`, `SortedMap.erase`, `SortedMap.ofList` — the last value given for a key
  is the one that counts;
* `get?_insert_self`, `get?_insert_of_ne`, `get?_erase_self`, `get?_erase_of_ne` — **every
  operation in terms of look-up**;
* `ext_get?` — **a sorted map is determined by its look-ups**;
* `contains_ofList`, `mem_of_get?_ofList` — a map built from pairs has exactly their keys, and no
  other values;
* `ofList_entries` — reading a map's own entries gives the map again.
-/

namespace PipelineEditor

/-- Entries in strictly increasing key order. -/
structure SortedMap (α : Type) where
  entries : List (String × α)
  increasing : entries.Pairwise fun a b => a.1 < b.1

namespace SortedMap

variable {α β : Type}

/-! ## Entry lists -/

/-- Places an entry before the first larger key, replacing an equal one. -/
def insertEntry (key : String) (value : α) : List (String × α) → List (String × α)
  | [] => [(key, value)]
  | (k, v) :: rest =>
    if key < k then (key, value) :: (k, v) :: rest
    else if key = k then (key, value) :: rest
    else (k, v) :: insertEntry key value rest

/-- A key of the list after an insertion is the new one or an old one. -/
theorem fst_of_mem_insertEntry {key : String} {value : α} {entries : List (String × α)}
    {e : String × α} (h : e ∈ insertEntry key value entries) :
    e.1 = key ∨ e ∈ entries := by
  induction entries with
  | nil => simp [insertEntry] at h; simp [h]
  | cons head rest ih =>
    obtain ⟨k, v⟩ := head
    simp only [insertEntry] at h
    split at h
    · simp only [List.mem_cons] at h
      rcases h with rfl | rfl | h <;> simp_all
    · split at h
      · simp only [List.mem_cons] at h
        rcases h with rfl | h <;> simp_all
      · simp only [List.mem_cons] at h
        rcases h with rfl | h
        · simp
        · rcases ih h with h | h <;> simp [h]

theorem insertEntry_increasing {key : String} {value : α} {entries : List (String × α)}
    (h : entries.Pairwise fun a b => a.1 < b.1) :
    (insertEntry key value entries).Pairwise fun a b => a.1 < b.1 := by
  induction entries with
  | nil => simp [insertEntry]
  | cons head rest ih =>
    obtain ⟨k, v⟩ := head
    obtain ⟨hk, hrest⟩ := List.pairwise_cons.mp h
    simp only [insertEntry]
    split
    next hlt =>
      refine List.pairwise_cons.mpr ⟨fun e he => ?_, h⟩
      rcases List.mem_cons.mp he with rfl | he
      · exact hlt
      · exact String.lt_trans hlt (hk e he)
    next hnlt =>
      split
      next heq =>
        subst heq
        exact List.pairwise_cons.mpr ⟨hk, hrest⟩
      next hne =>
        refine List.pairwise_cons.mpr ⟨fun e he => ?_, ih hrest⟩
        rcases fst_of_mem_insertEntry he with heq | he
        · show k < e.1
          rw [heq]
          refine Decidable.byContradiction fun hkn => hne ?_
          exact String.le_antisymm (String.not_lt.mp hkn) (String.not_lt.mp hnlt)
        · exact hk e he

theorem lookup_insertEntry_self (key : String) (value : α) (entries : List (String × α)) :
    (insertEntry key value entries).lookup key = some value := by
  induction entries with
  | nil => simp [insertEntry]
  | cons head rest ih =>
    obtain ⟨k, v⟩ := head
    simp only [insertEntry]
    split
    · simp
    · split
      · simp
      next hne => simp [List.lookup_cons, ih, beq_eq_false_iff_ne.mpr hne]

theorem lookup_insertEntry_of_ne {key other : String} (value : α) (h : other ≠ key)
    (entries : List (String × α)) :
    (insertEntry key value entries).lookup other = entries.lookup other := by
  induction entries with
  | nil => simp [insertEntry, List.lookup_cons, beq_eq_false_iff_ne.mpr h]
  | cons head rest ih =>
    obtain ⟨k, v⟩ := head
    simp only [insertEntry]
    split
    · simp [List.lookup_cons, beq_eq_false_iff_ne.mpr h]
    · split
      next heq => subst heq; simp [List.lookup_cons, beq_eq_false_iff_ne.mpr h]
      · simp [List.lookup_cons, ih]

/-- A key below every key of the list is not found in it. -/
theorem lookup_eq_none_of_lt {key : String} {entries : List (String × α)}
    (h : ∀ e ∈ entries, key < e.1) : entries.lookup key = none := by
  induction entries with
  | nil => rfl
  | cons head rest ih =>
    obtain ⟨k, v⟩ := head
    have hne : key ≠ k := by
      rintro rfl
      exact String.lt_irrefl _ (h (key, v) List.mem_cons_self)
    simp [List.lookup_cons, beq_eq_false_iff_ne.mpr hne,
      ih fun e he => h e (List.mem_cons_of_mem _ he)]

/-- Two increasing entry lists with the same look-ups are equal. -/
theorem entries_eq_of_lookup_eq {xs ys : List (String × α)}
    (hx : xs.Pairwise fun a b => a.1 < b.1) (hy : ys.Pairwise fun a b => a.1 < b.1)
    (h : ∀ key, xs.lookup key = ys.lookup key) : xs = ys := by
  induction xs generalizing ys with
  | nil =>
    cases ys with
    | nil => rfl
    | cons y ys => exact absurd (h y.1) (by rw [Entries.lookup_cons_self]; simp)
  | cons x xs ih =>
    cases ys with
    | nil => exact absurd (h x.1) (by rw [Entries.lookup_cons_self]; simp)
    | cons y ys =>
      obtain ⟨kx, vx⟩ := x
      obtain ⟨ky, vy⟩ := y
      obtain ⟨hxlt, hxs⟩ := List.pairwise_cons.mp hx
      obtain ⟨hylt, hys⟩ := List.pairwise_cons.mp hy
      have hk : kx = ky := by
        refine String.le_antisymm (String.not_lt.mp fun hlt => ?_) (String.not_lt.mp fun hlt => ?_)
        · have hy' := h ky
          have hnone : ((kx, vx) :: xs).lookup ky = none :=
            lookup_eq_none_of_lt fun e he => by
              rcases List.mem_cons.mp he with rfl | he
              · exact hlt
              · exact String.lt_trans hlt (hxlt e he)
          rw [hnone] at hy'
          simp at hy'
        · have hx' := h kx
          have hnone : ((ky, vy) :: ys).lookup kx = none :=
            lookup_eq_none_of_lt fun e he => by
              rcases List.mem_cons.mp he with rfl | he
              · exact hlt
              · exact String.lt_trans hlt (hylt e he)
          rw [hnone] at hx'
          simp at hx'
      subst hk
      have hv : vx = vy := by
        have := h kx
        simpa [List.lookup_cons] using this
      subst hv
      have hrest : xs = ys := by
        refine ih hxs hys fun key => ?_
        by_cases hkey : key = kx
        · subst hkey
          rw [lookup_eq_none_of_lt hxlt, lookup_eq_none_of_lt hylt]
        · have := h key
          simpa [List.lookup_cons, beq_eq_false_iff_ne.mpr hkey] using this
      rw [hrest]

/-! ## Maps -/

/-- The map without entries. -/
def empty : SortedMap α := ⟨[], List.Pairwise.nil⟩

instance : Inhabited (SortedMap α) := ⟨empty⟩

instance [DecidableEq α] : DecidableEq (SortedMap α) := fun a b =>
  decidable_of_iff (a.entries = b.entries) ⟨fun h => by cases a; cases b; cases h; rfl, fun h => h ▸ rfl⟩

/-- The keys, in increasing order. -/
def keys (m : SortedMap α) : List String := m.entries.map Prod.fst

/-- The number of keys. -/
def size (m : SortedMap α) : Nat := m.entries.length

/-- Whether no key has a value. -/
def isEmpty (m : SortedMap α) : Bool := m.entries.isEmpty

/-- The value of a key, if it has one. -/
def get? (m : SortedMap α) (key : String) : Option α := m.entries.lookup key

/-- Whether a key has a value. -/
def contains (m : SortedMap α) (key : String) : Bool := (m.get? key).isSome

/-- Gives a key a value, replacing the one it had. -/
def insert (m : SortedMap α) (key : String) (value : α) : SortedMap α :=
  ⟨insertEntry key value m.entries, insertEntry_increasing m.increasing⟩

/-- Takes a key and its value away. -/
def erase (m : SortedMap α) (key : String) : SortedMap α :=
  ⟨m.entries.filter fun e => decide (e.1 ≠ key), m.increasing.filter _⟩

/-- Inserts the pairs one after the other, so that the last value of a key stays. -/
def ofList (pairs : List (String × α)) : SortedMap α :=
  pairs.foldl (fun m e => m.insert e.1 e.2) empty

@[simp] theorem get?_empty (key : String) : (empty : SortedMap α).get? key = none := rfl

@[simp] theorem get?_insert_self (m : SortedMap α) (key : String) (value : α) :
    (m.insert key value).get? key = some value :=
  lookup_insertEntry_self key value m.entries

theorem get?_insert_of_ne (m : SortedMap α) {key other : String} (value : α) (h : other ≠ key) :
    (m.insert key value).get? other = m.get? other :=
  lookup_insertEntry_of_ne value h m.entries

@[simp] theorem get?_erase_self (m : SortedMap α) (key : String) :
    (m.erase key).get? key = none :=
  Entries.lookup_filter_self key m.entries

theorem get?_erase_of_ne (m : SortedMap α) {key other : String} (h : other ≠ key) :
    (m.erase key).get? other = m.get? other :=
  Entries.lookup_filter_of_ne h m.entries

/-- **A sorted map is determined by its look-ups.** -/
theorem ext_get? {a b : SortedMap α} (h : ∀ key, a.get? key = b.get? key) : a = b := by
  cases a with
  | mk xs hx =>
    cases b with
    | mk ys hy =>
      have := entries_eq_of_lookup_eq hx hy h
      subst this
      rfl

/-- Writing one key twice leaves the second value. -/
theorem insert_insert (m : SortedMap α) (key : String) (v w : α) :
    (m.insert key v).insert key w = m.insert key w := by
  refine ext_get? fun other => ?_
  by_cases h : other = key
  · subst h; simp
  · simp [get?_insert_of_ne _ _ h]

/-- Writes of different keys may be exchanged. -/
theorem insert_comm (m : SortedMap α) {key other : String} (v w : α) (h : key ≠ other) :
    (m.insert key v).insert other w = (m.insert other w).insert key v := by
  refine ext_get? fun k => ?_
  by_cases h₁ : k = key
  · subst h₁; rw [get?_insert_of_ne _ _ h]; simp
  · by_cases h₂ : k = other
    · subst h₂; rw [get?_insert_self, get?_insert_of_ne _ _ h₁]; simp
    · simp [get?_insert_of_ne _ _ h₁, get?_insert_of_ne _ _ h₂]

/-- **Writing a value that is already there changes nothing.** -/
theorem insert_eq_self {m : SortedMap α} {key : String} {value : α}
    (h : m.get? key = some value) : m.insert key value = m := by
  refine ext_get? fun other => ?_
  by_cases hk : other = key
  · rw [hk, get?_insert_self, h]
  · rw [get?_insert_of_ne _ _ hk]

/-- Taking away a key that is not there changes nothing. -/
theorem erase_eq_self {m : SortedMap α} {key : String} (h : m.get? key = none) :
    m.erase key = m := by
  refine ext_get? fun other => ?_
  by_cases hk : other = key
  · rw [hk, get?_erase_self, h]
  · rw [get?_erase_of_ne _ hk]

theorem contains_insert (m : SortedMap α) (key other : String) (value : α) :
    (m.insert key value).contains other = (decide (other = key) || m.contains other) := by
  by_cases hk : other = key
  · simp [contains, hk]
  · simp [contains, get?_insert_of_ne _ _ hk, hk]

/-- A map built from pairs has exactly their keys. -/
theorem contains_ofList (pairs : List (String × α)) (key : String) :
    (ofList pairs).contains key = true ↔ key ∈ pairs.map Prod.fst := by
  have hfold : ∀ (pairs : List (String × α)) (m : SortedMap α),
      (pairs.foldl (fun m e => m.insert e.1 e.2) m).contains key = true
        ↔ m.contains key = true ∨ key ∈ pairs.map Prod.fst := by
    intro pairs
    induction pairs with
    | nil => intro m; simp
    | cons e rest ih =>
      intro m
      rw [List.foldl_cons, ih, contains_insert]
      simp only [Bool.or_eq_true, decide_eq_true_eq, List.map_cons, List.mem_cons]
      constructor
      · rintro ((rfl | h) | h)
        · exact .inr (.inl rfl)
        · exact .inl h
        · exact .inr (.inr h)
      · rintro (h | rfl | h)
        · exact .inl (.inr h)
        · exact .inl (.inl rfl)
        · exact .inr h
  rw [ofList, hfold]
  simp [contains]

/-- What is found in a map built from pairs is one of them. -/
theorem mem_of_get?_ofList {pairs : List (String × α)} {key : String} {value : α}
    (h : (ofList pairs).get? key = some value) : (key, value) ∈ pairs := by
  have hfold : ∀ (pairs : List (String × α)) (m : SortedMap α),
      (pairs.foldl (fun m e => m.insert e.1 e.2) m).get? key = some value →
        m.get? key = some value ∨ (key, value) ∈ pairs := by
    intro pairs
    induction pairs with
    | nil => exact fun m hm => .inl hm
    | cons e rest ih =>
      intro m hm
      rcases ih _ hm with hfirst | hrest
      · by_cases hkey : key = e.1
        · rw [hkey, get?_insert_self] at hfirst
          rw [hkey, ← Option.some.inj hfirst]
          exact .inr List.mem_cons_self
        · rw [get?_insert_of_ne _ _ hkey] at hfirst
          exact .inl hfirst
      · exact .inr (List.mem_cons_of_mem e hrest)
  rcases hfold pairs empty h with hempty | hmem
  · cases hempty
  · exact hmem

theorem keys_nodup (m : SortedMap α) : m.keys.Nodup := by
  rw [keys, List.Nodup, List.pairwise_map]
  refine m.increasing.imp ?_
  intro a b hlt heq
  rw [heq] at hlt
  exact String.lt_irrefl _ hlt

/-- What is found in a map built from pairs with distinct keys is what is found in the pairs. -/
theorem get?_ofList {pairs : List (String × α)} (hdistinct : (pairs.map Prod.fst).Nodup)
    (key : String) : (ofList pairs).get? key = pairs.lookup key := by
  cases hget : (ofList pairs).get? key with
  | none =>
    have habsent : key ∉ pairs.map Prod.fst := by
      rw [← contains_ofList, contains, hget]
      exact Bool.false_ne_true
    symm
    rwa [← Option.not_isSome_iff_eq_none, Entries.lookup_isSome_iff]
  | some value => exact (Entries.lookup_of_mem hdistinct (mem_of_get?_ofList hget)).symm

/-- **Reading a map's own entries gives the map again.** -/
theorem ofList_entries (m : SortedMap α) : ofList m.entries = m :=
  ext_get? fun key => get?_ofList m.keys_nodup key

/-- An entry of a map built from pairs is one of them. -/
theorem mem_of_mem_ofList {pairs : List (String × α)} {e : String × α}
    (h : e ∈ (ofList pairs).entries) : e ∈ pairs :=
  mem_of_get?_ofList (Entries.lookup_of_mem (ofList pairs).keys_nodup h)

end SortedMap

end PipelineEditor
