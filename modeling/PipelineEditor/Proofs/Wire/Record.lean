import PipelineEditor.Proofs.Wire.Basic

/-!
# Reading back records

A record is written as an object with its members in the order of declaration.  A member without a
value is left out or written as null, and an empty map may be left out.  Reading finds exactly the
members that were written, and what a missing member means is what its absence was written for.
So a record is read back when its parts are.

* `Json.Declared` — members in the order of declaration, some of them left out;
* `Json.asRecord` — the record that written members are read as;
* `Source.record?_object`, `Source.openRecord?_object` — **the members are found again**;
* `Record.required?_asRecord`, `Record.withDefault?_asRecord`, `Record.optional?_asRecord` — what
  is asked for is what was written under the name;
* `Wire.ReadsBack.of_record` — **a record is read back when its parts are found again**;
* `Wire.readsBack_of_required?`, `Wire.readsBack_of_withDefault?`,
  `Wire.exists_read_of_optional?` — the parts of a record that was read were read, or are defaults.
-/

namespace PipelineEditor

/-! ## Finding the members -/

namespace Json

/-- Members in the order of the names, each name given at most once. -/
def Declared (names : List String) (ms : List (String × Json)) : Prop :=
  (ms.map Prod.fst).Sublist names

/-- The record whose members are written members. -/
def asRecord (ms : List (String × Json)) : Record := ⟨ms.map fun m => (m.1, m.2.toSource)⟩

section
variable {α : Type} [Wire α]

theorem Declared.append {names others : List String} {ms parts : List (String × Json)}
    (hms : Declared names ms) (hparts : Declared others parts) :
    Declared (names ++ others) (ms ++ parts) := by
  rw [Declared, List.map_append]
  exact List.Sublist.append hms hparts

theorem declared_member {name : String} {v : α} : Declared [name] (member name v) :=
  List.Sublist.refl [name]

theorem declared_memberOrNull {name : String} {v : Option α} :
    Declared [name] (memberOrNull name v) :=
  List.Sublist.refl [name]

theorem declared_memberIfSome {name : String} {v : Option α} :
    Declared [name] (memberIfSome name v) := by
  cases v with
  | none => exact List.nil_sublist [name]
  | some a => exact List.Sublist.refl [name]

theorem declared_memberIfNonempty {name : String} {m : SortedMap α} :
    Declared [name] (memberIfNonempty name m) := by
  unfold memberIfNonempty
  split
  · exact List.nil_sublist [name]
  · exact List.Sublist.refl [name]

end

theorem Declared.mem {names : List String} {ms : List (String × Json)} (h : Declared names ms)
    {m : String × Json} (hm : m ∈ ms) : m.1 ∈ names :=
  h.subset (List.mem_map_of_mem hm)

theorem Declared.distinct {names : List String} {ms : List (String × Json)} (h : Declared names ms)
    (hnames : names.Nodup) : (ms.map Prod.fst).Nodup :=
  hnames.sublist h

end Json

namespace Source

/-- Among written members with distinct names, those with a declared name are found. -/
theorem knownMembers?_membersToSource (names : List String) {ms : List (String × Json)}
    (hdistinct : (ms.map Prod.fst).Nodup) :
    knownMembers? names (Json.membersToSource ms) =
      some (Json.asRecord (ms.filter fun m => m.1 ∈ names)).members := by
  induction ms with
  | nil => rfl
  | cons m rest ih =>
    obtain ⟨name, j⟩ := m
    obtain ⟨hnew, hrest⟩ := List.nodup_cons.mp hdistinct
    rw [Json.membersToSource, knownMembers?, ih hrest]
    by_cases hname : name ∈ names
    · have habsent : name ∉
          (Json.asRecord (rest.filter fun m => m.1 ∈ names)).members.map Prod.fst := by
        intro hmem
        rw [Json.asRecord, List.map_map, List.mem_map] at hmem
        obtain ⟨m, hm, hkey⟩ := hmem
        exact hnew (List.mem_map.mpr ⟨m, (List.mem_filter.mp hm).1, hkey⟩)
      simp only [declaredName?, if_pos hname, if_neg habsent]
      rw [List.filter_cons_of_pos (by simpa using hname)]
      rfl
    · simp only [declaredName?, if_neg hname]
      rw [List.filter_cons_of_neg (by simpa using hname)]

theorem objectRecord?_object {names : List String} {ms : List (String × Json)}
    (hnames : names.Nodup) (hms : Json.Declared names ms) :
    objectRecord? names (Json.object ms).toSource = some (Json.asRecord ms) := by
  have hall : (ms.filter fun m => m.1 ∈ names) = ms :=
    List.filter_eq_self.mpr fun m hm => by simpa using hms.mem hm
  show (knownMembers? names (Json.membersToSource ms)).map Record.mk = _
  rw [knownMembers?_membersToSource names (hms.distinct hnames), hall]
  rfl

/-- **The members of a written record are found again.** -/
theorem record?_object {names : List String} {ms : List (String × Json)} (hnames : names.Nodup)
    (hms : Json.Declared names ms) :
    record? names (Json.object ms).toSource = some (Json.asRecord ms) :=
  objectRecord?_object hnames hms

theorem splitMembers?_others {names : List String} {others : List (String × Json)}
    (hothers : ∀ m ∈ others, m.1 ∉ names) :
    splitMembers? names (Json.membersToSource others) =
      some ([], (Json.asRecord others).members) := by
  induction others with
  | nil => rfl
  | cons m rest ih =>
    obtain ⟨name, j⟩ := m
    rw [Json.membersToSource, splitMembers?, ih fun l hl => hothers l (List.mem_cons_of_mem _ hl)]
    simp only [if_neg (hothers (name, j) List.mem_cons_self), if_pos (Json.readable_toSource j)]
    rfl

theorem splitMembers?_append {names : List String} {known others : List (String × Json)}
    (hdistinct : (known.map Prod.fst).Nodup) (hknown : ∀ m ∈ known, m.1 ∈ names)
    (hothers : ∀ m ∈ others, m.1 ∉ names) :
    splitMembers? names (Json.membersToSource (known ++ others)) =
      some ((Json.asRecord known).members, (Json.asRecord others).members) := by
  induction known with
  | nil => exact splitMembers?_others hothers
  | cons m rest ih =>
    obtain ⟨name, j⟩ := m
    obtain ⟨hnew, hrest⟩ := List.nodup_cons.mp hdistinct
    have habsent : name ∉ (Json.asRecord rest).members.map Prod.fst := by
      rw [Json.asRecord, List.map_map]
      exact hnew
    rw [List.cons_append, Json.membersToSource, splitMembers?,
      ih hrest fun l hl => hknown l (List.mem_cons_of_mem _ hl)]
    simp only [if_pos (hknown (name, j) List.mem_cons_self), if_neg habsent]
    rfl

/-- **The members of a written open record are found again**, those that it does not know too. -/
theorem openRecord?_object {names : List String} {known others : List (String × Json)}
    (hnames : names.Nodup) (hknown : Json.Declared names known)
    (hothers : ∀ m ∈ others, m.1 ∉ names) :
    openRecord? names (Json.object (known ++ others)).toSource =
      some (Json.asRecord known, (Json.asRecord others).members) := by
  show (splitMembers? names (Json.membersToSource (known ++ others))).map _ = _
  rw [splitMembers?_append (hknown.distinct hnames) (fun m hm => hknown.mem hm) hothers]
  rfl

/-- The members that an open record does not know have other names. -/
theorem not_mem_of_openRecord? {names : List String} {s : Source} {r : Record}
    {others : List (String × Source)} (h : s.openRecord? names = some (r, others)) :
    ∀ m ∈ others, m.1 ∉ names := by
  cases s with
  | object members =>
    obtain ⟨split, hsplit, heq⟩ := Option.map_eq_some_iff.mp h
    have hothers : split.2 = others := (Prod.mk.inj heq).2
    subst hothers
    clear heq h
    induction members generalizing split with
    | nil => cases hsplit; nofun
    | cons member rest ih =>
      obtain ⟨key, s⟩ := member
      cases key with
      | text name =>
        rw [splitMembers?] at hsplit
        split at hsplit
        · cases hsplit
        next known others hrest =>
          have hothers := ih (known, others) hrest
          split at hsplit
          · split at hsplit
            · cases hsplit
            · cases hsplit
              exact hothers
          next hname =>
            split at hsplit
            · cases hsplit
              intro m hm
              rcases List.mem_cons.mp hm with rfl | hmem
              · exact hname
              · exact hothers m hmem
            · cases hsplit
      | _ => cases hsplit
  | _ => cases h

end Source

/-! ## Asking for the members -/

namespace Json

variable {α : Type} [Wire α]

/-- What a written member is read as when null stands for no value. -/
def readNullable? (j : Json) : Option (Option α) :=
  match j.toSource with
  | .null => some none
  | s => (read? s).map some

@[simp] theorem lookup_member (name other : String) (v : α) :
    (member name v).lookup other = if other = name then some (write v) else none := by
  by_cases h : other = name
  · rw [if_pos h, h, member, Entries.lookup_cons_self]
  · rw [if_neg h, member, Entries.lookup_cons_of_ne _ _ h]
    rfl

@[simp] theorem lookup_memberOrNull (name other : String) (v : Option α) :
    (memberOrNull name v).lookup other =
      if other = name then some (v.elim null write) else none := by
  have hmember : memberOrNull name v = [(name, v.elim null write)] := by cases v <;> rfl
  rw [hmember]
  by_cases h : other = name
  · rw [if_pos h, h, Entries.lookup_cons_self]
  · rw [if_neg h, Entries.lookup_cons_of_ne _ _ h]
    rfl

@[simp] theorem lookup_memberIfSome (name other : String) (v : Option α) :
    (memberIfSome name v).lookup other = if other = name then v.map write else none := by
  cases v with
  | none => rw [Option.map_none, ite_self]; rfl
  | some a => exact lookup_member name other a

@[simp] theorem lookup_memberIfNonempty (name other : String) (m : SortedMap α) :
    (memberIfNonempty name m).lookup other =
      if other = name then (if m.isEmpty then none else some (write m)) else none := by
  unfold memberIfNonempty
  split
  · rw [ite_self]; rfl
  · exact lookup_member name other m

end Json

namespace Record

variable {α : Type} [Wire α]

theorem get?_asRecord (ms : List (String × Json)) (name : String) :
    (Json.asRecord ms).get? name = (ms.lookup name).map Json.toSource :=
  Entries.lookup_map Json.toSource name ms

/-! What is asked for is what was written under the name. -/

@[simp] theorem required?_asRecord (ms : List (String × Json)) (name : String) :
    ((Json.asRecord ms).required? name : Option α) =
      (ms.lookup name).bind fun j => read? j.toSource := by
  rw [required?, get?_asRecord]
  cases ms.lookup name <;> rfl

@[simp] theorem withDefault?_asRecord (ms : List (String × Json)) (name : String) (default : α) :
    (Json.asRecord ms).withDefault? name default =
      (ms.lookup name).elim (some default) fun j => read? j.toSource := by
  rw [withDefault?, get?_asRecord]
  cases ms.lookup name <;> rfl

@[simp] theorem optional?_asRecord (ms : List (String × Json)) (name : String) :
    ((Json.asRecord ms).optional? name : Option (Option α)) =
      (ms.lookup name).elim (some none) Json.readNullable? := by
  rw [optional?, get?_asRecord]
  cases ms.lookup name with
  | none => rfl
  | some j => cases j <;> rfl

end Record

namespace Wire

variable {α : Type} [Wire α]

/-- A value of a type that null is not read as is not mistaken for a missing one. -/
theorem readNullable?_of_read? {j : Json} {a : α} (h : read? j.toSource = some a)
    (hnull : (read? .null : Option α) = none) : Json.readNullable? j = some (some a) := by
  unfold Json.readNullable?
  split
  next hsource =>
    rw [hsource, hnull] at h
    cases h
  next => rw [h, Option.map_some]

/-- A member that is left out when it has no value is read back. -/
theorem elim_readNullable? {v : Option α} (h : ∀ a ∈ v, ReadsBack a)
    (hnull : (read? .null : Option α) = none) :
    v.elim (some none) (Json.readNullable? ∘ write) = some v := by
  cases v with
  | none => rfl
  | some a => exact readNullable?_of_read? (h a rfl) hnull

@[simp] theorem elim_readNullable?_string (v : Option String) :
    v.elim (some none) (Json.readNullable? ∘ write) = some v :=
  elim_readNullable? (fun a _ => Exact.readsBack a) rfl

/-- A text that is written as null when it is missing is read back. -/
@[simp] theorem readNullable?_elim_string (v : Option String) :
    Json.readNullable? (v.elim .null write) = some v := by
  cases v with
  | none => rfl
  | some a => rfl

/-- A map that is left out when it is empty is read back. -/
theorem elim_nonempty {m : SortedMap α} (h : ReadsBack m) :
    (if m.isEmpty then none else some (write m)).elim (some SortedMap.empty)
      (fun j => read? j.toSource) = some m := by
  split
  next hempty =>
    have hentries : m.entries = [] := List.isEmpty_iff.mp hempty
    obtain ⟨entries, increasing⟩ := m
    subst hentries
    rfl
  · exact h

/-! ## Records -/

/-- What a written record is read as is put together from its members. -/
theorem read?_record {v w : α} {names : List String} {ms : List (String × Json)}
    {parts : Record → Option α} (hwrite : write v = .object ms)
    (hread : ∀ s : Source, read? s = (s.record? names).bind parts) (hnames : names.Nodup)
    (hms : Json.Declared names ms) (hparts : parts (Json.asRecord ms) = some w) :
    read? (write v).toSource = some w := by
  rw [hwrite, hread, Source.record?_object hnames hms, Option.bind_some, hparts]

/-- **A record is read back when its parts are found again.** -/
theorem ReadsBack.of_record {v : α} {names : List String} {ms : List (String × Json)}
    {parts : Record → Option α} (hwrite : write v = .object ms)
    (hread : ∀ s : Source, read? s = (s.record? names).bind parts) (hnames : names.Nodup)
    (hms : Json.Declared names ms) (hparts : parts (Json.asRecord ms) = some v) : ReadsBack v :=
  read?_record hwrite hread hnames hms hparts

/-- **An open record is read back when its parts are found again.** -/
theorem ReadsBack.of_openRecord {v : α} {names : List String} {known others : List (String × Json)}
    {parts : Record × List (String × Source) → Option α}
    (hwrite : write v = .object (known ++ others))
    (hread : ∀ s : Source, read? s = (s.openRecord? names).bind parts) (hnames : names.Nodup)
    (hknown : Json.Declared names known) (hothers : ∀ m ∈ others, m.1 ∉ names)
    (hparts : parts (Json.asRecord known, (Json.asRecord others).members) = some v) :
    ReadsBack v := by
  rw [ReadsBack, hwrite, hread, Source.openRecord?_object hnames hknown hothers,
    Option.bind_some, hparts]

/-- The entries that an open record keeps in a map have names that it does not know. -/
theorem not_mem_of_mem_ofList {names : List String} {s : Source} {r : Record}
    {others : List (String × Source)} {entries : List (String × α)}
    (hopen : s.openRecord? names = some (r, others)) (hentries : readValues? others = some entries)
    {e : String × α} (he : e ∈ (SortedMap.ofList entries).entries) : e.1 ∉ names := by
  obtain ⟨place, hmember, -⟩ :=
    exists_member_of_readValues? hentries e (SortedMap.mem_of_mem_ofList he)
  exact Source.not_mem_of_openRecord? hopen _ hmember

variable {r : Record} {name : String}

/-- The value of an optional member was read from somewhere. -/
theorem exists_read_of_optional? {v : Option α} (h : r.optional? name = some v) :
    ∀ a ∈ v, ∃ s : Source, read? s = some a := by
  unfold Record.optional? at h
  split at h
  · cases h; nofun
  next place _ _ =>
    obtain ⟨b, hb, rfl⟩ := Option.map_eq_some_iff.mp h
    intro a ha
    cases ha
    exact ⟨place, hb⟩
  · cases h; nofun

variable [Lawful α]

theorem readsBack_of_required? {a : α} (h : r.required? name = some a) : ReadsBack a := by
  unfold Record.required? at h
  split at h
  · exact Lawful.readsBack h
  · cases h

theorem readsBack_of_withDefault? {a default : α} (hdefault : ReadsBack default)
    (h : r.withDefault? name default = some a) : ReadsBack a := by
  unfold Record.withDefault? at h
  split at h
  · exact Lawful.readsBack h
  · exact Option.some.inj h ▸ hdefault

end Wire

end PipelineEditor
