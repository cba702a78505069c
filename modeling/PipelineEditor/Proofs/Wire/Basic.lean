import PipelineEditor.Proofs.Json.ReadBack
import PipelineEditor.Source.Record

/-!
# Reading back what was written

A value can be spelled in many ways: as a record or as an array, with its members in any order,
with members that nobody knows, with repeated keys.  It is written in one way.  The law of a type
is that a value that was read from any spelling is read again from the way in which it is
written.  It is not a law about all values: a JSON value with a member that comes twice is never
read, and would not come back if it were written.

* `Wire.ReadsBack`, `Wire.Lawful`, `Wire.Exact` — the written form of a value is read as the
  value; this holds of every value that was read, or of every value at all;
* `Wire.ReadsBack.ofText?_compact` — **the same for texts**;
* `Wire.ComesBack`, `Wire.RoundTrips` — both together, of a value and of all that were read;
* `Source.toJson?_toSource` — a JSON value is read back: the first place and the last value of a
  repeated member were settled when it was first read;
* lawful lists and maps, from their lawful elements.
-/

namespace PipelineEditor

/-! ## The law -/

namespace Wire

/-- The written form of a value is read as the value. -/
def ReadsBack {α : Type} [Wire α] (v : α) : Prop := read? (write v).toSource = some v

theorem ReadsBack.read?_eq {α : Type} [Wire α] {v : α} (h : ReadsBack v) :
    read? (write v).toSource = some v :=
  h

/-- The values of a type, whatever they were read from, are read back. -/
class Lawful (α : Type) [Wire α] : Prop where
  readsBack : ∀ {s : Source} {v : α}, read? s = some v → ReadsBack v

/-- The values of a type are read back whether they were read or not. -/
class Exact (α : Type) [Wire α] : Prop where
  readsBack : ∀ v : α, ReadsBack v

instance {α : Type} [Wire α] [Exact α] : Lawful α := ⟨fun _ => Exact.readsBack _⟩

@[simp] theorem Exact.read?_write {α : Type} [Wire α] [Exact α] (v : α) :
    (read? (write v).toSource : Option α) = some v :=
  Exact.readsBack v

/-- The value that a JSON text is read as. -/
def ofText? {α : Type} [Wire α] (text : String) : Option α := (Source.parse? text).bind read?

/-- **A value that is read back is read from its text**, if its numbers are integers and no
container stands inside 127 others. -/
theorem ReadsBack.ofText?_compact {α : Type} [Wire α] {v : α} (h : ReadsBack v)
    (hnests : (write v).Nests Json.Parser.depthLimit) : ofText? (write v).compact = some v := by
  rw [ofText?, Source.parse?_compact hnests (Nat.le_refl _)]
  exact h

/-- A value comes back from its written form, and from the text of the written form if its numbers
are integers and no container stands inside 127 others. -/
def ComesBack {α : Type} [Wire α] (v : α) : Prop :=
  ReadsBack v ∧
    ((write v).Nests Json.Parser.depthLimit → ofText? (write v).compact = some v)

theorem ReadsBack.comesBack {α : Type} [Wire α] {v : α} (h : ReadsBack v) : ComesBack v :=
  ⟨h, h.ofText?_compact⟩

theorem Exact.comesBack {α : Type} [Wire α] [Exact α] (v : α) : ComesBack v :=
  (Exact.readsBack v).comesBack

/-- Whatever a value of the type was read from, it comes back. -/
def RoundTrips (α : Type) [Wire α] : Prop := ∀ (s : Source) (v : α), read? s = some v → ComesBack v

theorem Lawful.roundTrips (α : Type) [Wire α] [Lawful α] : RoundTrips α :=
  fun _ _ h => (Lawful.readsBack h).comesBack

instance : Exact String := ⟨fun _ => rfl⟩

instance : Exact Bool := ⟨fun _ => rfl⟩

end Wire

/-! ## JSON values -/

namespace Json

theorem allToSource_eq_map (js : List Json) : allToSource js = js.map toSource := by
  induction js with
  | nil => rfl
  | cons j js ih => rw [allToSource, ih, List.map_cons]

end Json

namespace Source

theorem membersToJson?_membersToSource {ms : List (String × Json)}
    (h : ∀ m ∈ ms, m.2.toSource.toJson? = some m.2) :
    membersToJson? (Json.membersToSource ms) = some ms := by
  induction ms with
  | nil => rfl
  | cons m ms ih =>
    obtain ⟨name, j⟩ := m
    rw [Json.membersToSource, membersToJson?, h (name, j) List.mem_cons_self,
      ih fun l hl => h l (List.mem_cons_of_mem _ hl)]

mutual
/-- **The JSON value of a tree is read back.** -/
theorem toJson?_toSource : ∀ {s : Source} {j : Json},
    s.toJson? = some j → j.toSource.toJson? = some j
  | .null, _, h => by cases h; rfl
  | .bool _, _, h => by cases h; rfl
  | .number _, _, h => by cases h; rfl
  | .notFinite, _, h => by cases h; rfl
  | .string _, _, h => by cases h; rfl
  | .array elements, j, h => by
    rw [toJson?] at h
    obtain ⟨js, hjs, rfl⟩ := Option.map_eq_some_iff.mp h
    rw [Json.toSource, toJson?, allToJson?_toSource hjs, Option.map_some]
  | .object members, j, h => by
    rw [toJson?] at h
    obtain ⟨ms, hms, rfl⟩ := Option.map_eq_some_iff.mp h
    -- the entries are distinct already, so that inserting them once more changes nothing
    have hdistinct : ((OrderedMap.insertAll ms []).map Prod.fst).Nodup :=
      OrderedMap.insertAll_distinct List.nodup_nil
    have hsame : OrderedMap.insertAll (OrderedMap.insertAll ms []) [] =
        OrderedMap.insertAll ms [] := by
      rw [OrderedMap.insertAll_of_nodup (by exact hdistinct), List.nil_append]
    have hvalues : ∀ m ∈ OrderedMap.insertAll ms [], m.2.toSource.toJson? = some m.2 := by
      intro m hm
      rcases OrderedMap.mem_insertAll hm with hnone | hmem
      · cases hnone
      · exact membersToJson?_toSource hms m hmem
    rw [Json.toSource, toJson?, membersToJson?_membersToSource hvalues, Option.map_some, hsame]

theorem allToJson?_toSource : ∀ {ss : List Source} {js : List Json},
    allToJson? ss = some js → allToJson? (Json.allToSource js) = some js
  | [], _, h => by cases h; rfl
  | s :: rest, js, h => by
    rw [allToJson?] at h
    split at h
    next j others hj hothers =>
      cases h
      rw [Json.allToSource, allToJson?, toJson?_toSource hj, allToJson?_toSource hothers]
    · cases h

theorem membersToJson?_toSource : ∀ {members : List (MemberName × Source)}
    {ms : List (String × Json)}, membersToJson? members = some ms →
      ∀ m ∈ ms, m.2.toSource.toJson? = some m.2
  | [], _, h, m, hm => by cases h; cases hm
  | (.text name, s) :: rest, ms, h, m, hm => by
    rw [membersToJson?] at h
    split at h
    next j others hj hothers =>
      cases h
      rcases List.mem_cons.mp hm with rfl | hmem
      · exact toJson?_toSource hj
      · exact membersToJson?_toSource hothers m hmem
    · cases h
  | (.index _, _) :: _, _, h, _, _ => by cases h
  | (.other, _) :: _, _, h, _, _ => by cases h
  | (.unreadable, _) :: _, _, h, _, _ => by cases h
end

theorem namedMembers?_membersToSource (ms : List (String × Json)) :
    namedMembers? (Json.membersToSource ms) = some (ms.map fun m => (m.1, m.2.toSource)) := by
  induction ms with
  | nil => rfl
  | cons m ms ih =>
    obtain ⟨name, j⟩ := m
    rw [Json.membersToSource, namedMembers?, ih, Option.map_some, List.map_cons]

end Source

namespace Wire

instance : Lawful Json := ⟨Source.toJson?_toSource⟩

variable {α : Type} [Wire α]

/-! ## Lists -/

/-- What can be read one by one can be read as a list. -/
theorem readAll?_map {β : Type} {place : β → Source} {value : β → α} {bs : List β}
    (h : ∀ b ∈ bs, read? (place b) = some (value b)) :
    readAll? (bs.map place) = some (bs.map value) := by
  induction bs with
  | nil => rfl
  | cons b bs ih =>
    rw [List.map_cons, readAll?, h b List.mem_cons_self,
      ih fun c hc => h c (List.mem_cons_of_mem _ hc)]
    rfl

/-- Every element of a list that was read was read. -/
theorem exists_read_of_readAll? {elements : List Source} {as : List α}
    (h : readAll? elements = some as) : ∀ a ∈ as, ∃ s, read? s = some a := by
  induction elements generalizing as with
  | nil => cases h; nofun
  | cons s rest ih =>
    rw [readAll?] at h
    split at h
    next a others hs hothers =>
      cases h
      intro b hb
      rcases List.mem_cons.mp hb with rfl | hmem
      · exact ⟨s, hs⟩
      · exact ih hothers b hmem
    · cases h

theorem ReadsBack.list {as : List α} (h : ∀ a ∈ as, ReadsBack a) : ReadsBack as := by
  have hsource : (write as).toSource = .array (as.map fun a => (write a).toSource) := by
    show Source.array (Json.allToSource (as.map write)) = _
    rw [Json.allToSource_eq_map, List.map_map]
    rfl
  have hread : readAll? (as.map fun a => (write a).toSource) = some (as.map id) := readAll?_map h
  rw [ReadsBack, hsource]
  show readAll? (as.map fun a => (write a).toSource) = some as
  rw [hread, List.map_id]

instance [Exact α] : Exact (List α) := ⟨fun _ => ReadsBack.list fun a _ => Exact.readsBack a⟩

instance [Lawful α] : Lawful (List α) where
  readsBack {s as} h := by
    refine ReadsBack.list fun a ha => ?_
    cases s with
    | array elements =>
      obtain ⟨place, hplace⟩ := exists_read_of_readAll? h a ha
      exact Lawful.readsBack hplace
    | _ => cases h

/-! ## Maps -/

theorem readValues?_map {entries : List (String × α)} (h : ∀ e ∈ entries, ReadsBack e.2) :
    readValues? (entries.map fun e => (e.1, (write e.2).toSource)) = some entries := by
  induction entries with
  | nil => rfl
  | cons e rest ih =>
    obtain ⟨key, value⟩ := e
    have hvalue : read? (write value).toSource = some value := h (key, value) List.mem_cons_self
    rw [List.map_cons, readValues?, hvalue, ih fun d hd => h d (List.mem_cons_of_mem _ hd)]

/-- Every entry that was read was read from a member of the same name. -/
theorem exists_member_of_readValues? {members : List (String × Source)}
    {entries : List (String × α)} (h : readValues? members = some entries) :
    ∀ e ∈ entries, ∃ s, (e.1, s) ∈ members ∧ read? s = some e.2 := by
  induction members generalizing entries with
  | nil => cases h; nofun
  | cons member rest ih =>
    obtain ⟨name, s⟩ := member
    rw [readValues?] at h
    split at h
    next a others hs hothers =>
      cases h
      intro e he
      rcases List.mem_cons.mp he with rfl | hmem
      · exact ⟨s, List.mem_cons_self, hs⟩
      · obtain ⟨place, hplace, hread⟩ := ih hothers e hmem
        exact ⟨place, List.mem_cons_of_mem _ hplace, hread⟩
    · cases h

theorem exists_read_of_readMap? {s : Source} {entries : List (String × α)}
    (h : readMap? s = some entries) : ∀ e ∈ entries, ∃ place, read? place = some e.2 := by
  cases s with
  | object members =>
    obtain ⟨named, -, hvalues⟩ := Option.bind_eq_some_iff.mp h
    intro e he
    obtain ⟨place, -, hread⟩ := exists_member_of_readValues? hvalues e he
    exact ⟨place, hread⟩
  | _ => cases h

theorem readMap?_writeMap {entries : List (String × α)} (h : ∀ e ∈ entries, ReadsBack e.2) :
    readMap? (writeMap entries).toSource = some entries := by
  show (Source.namedMembers? (Json.membersToSource _)).bind readValues? = _
  rw [Source.namedMembers?_membersToSource, Option.bind_some, List.map_map]
  exact readValues?_map h

theorem ReadsBack.sortedMap {m : SortedMap α} (h : ∀ e ∈ m.entries, ReadsBack e.2) :
    ReadsBack m := by
  show (readMap? (writeMap m.entries).toSource).map SortedMap.ofList = some m
  rw [readMap?_writeMap h, Option.map_some, m.ofList_entries]

theorem readsBack_empty : ReadsBack (SortedMap.empty : SortedMap α) := rfl

theorem ReadsBack.orderedMap {m : OrderedMap α} (h : ∀ e ∈ m.entries, ReadsBack e.2) :
    ReadsBack m := by
  show (readMap? (writeMap m.entries).toSource).map OrderedMap.ofList = some m
  rw [readMap?_writeMap h, Option.map_some, m.ofList_entries]

/-- The values of a map of entries that were read were read. -/
theorem readsBack_of_mem_ofList [Lawful α] {members : List (String × Source)}
    {entries : List (String × α)} (h : readValues? members = some entries) :
    ∀ e ∈ (SortedMap.ofList entries).entries, ReadsBack e.2 := by
  intro e he
  obtain ⟨place, -, hread⟩ := exists_member_of_readValues? h e (SortedMap.mem_of_mem_ofList he)
  exact Lawful.readsBack hread

instance [Exact α] : Exact (SortedMap α) :=
  ⟨fun _ => ReadsBack.sortedMap fun e _ => Exact.readsBack e.2⟩

instance [Exact α] : Exact (OrderedMap α) :=
  ⟨fun _ => ReadsBack.orderedMap fun e _ => Exact.readsBack e.2⟩

instance [Lawful α] : Lawful (SortedMap α) where
  readsBack {s m} h := by
    obtain ⟨entries, hentries, rfl⟩ := Option.map_eq_some_iff.mp h
    refine ReadsBack.sortedMap fun e he => ?_
    obtain ⟨place, hplace⟩ := exists_read_of_readMap? hentries e (SortedMap.mem_of_mem_ofList he)
    exact Lawful.readsBack hplace

instance [Lawful α] : Lawful (OrderedMap α) where
  readsBack {s m} h := by
    obtain ⟨entries, hentries, rfl⟩ := Option.map_eq_some_iff.mp h
    refine ReadsBack.orderedMap fun e he => ?_
    rcases OrderedMap.mem_insertAll he with hnone | hmem
    · cases hnone
    · obtain ⟨place, hplace⟩ := exists_read_of_readMap? hentries e hmem
      exact Lawful.readsBack hplace

end Wire

end PipelineEditor
