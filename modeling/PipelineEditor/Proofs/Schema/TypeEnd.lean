import Mathlib.Logic.Relation
import PipelineEditor.Proofs.Schema.TypePath

/-!
# The end of the path through a raw type

Every path through a raw type ends, because a step leads to a part of the value, and it ends in one
place, because from a value there is one step at most.  What stands at the end decides the reading
alone.  If it is a name or a map object, the value has a shape, and the column type is the one of
the end.  If it is anything else, the fault is the fault of the end: the message tells of the inner
value and not of what leads to it.  A step adds no more than a layer around the shape, which the
reduction takes off again; of the layers only the unions leave a trace, in the nullable flag.

* `Json.EndsIn`, `Json.exists_endsIn`, `Json.EndsIn.unique` — **the one end of a path**;
* `ColumnType.FoundAt`, `TypeFault.FoundAt`, `Json.Stops.found` — what can stand at the end;
* `TypeShape.ofJson_of_leadsTo`, `TypeShape.ofJson_of_onPath` — the reading of a value from the
  reading of what it leads to, for one step and for the path;
* `TypeShape.path_end_decides` — **what is read, and which fault is found, by the end of the path**.
-/

namespace PipelineEditor

/-! ## Ends -/

namespace Json

/-- No step leads on from a value. -/
def Stops (j : Json) : Prop := ∀ k, ¬ LeadsTo j k

/-- The path through the first value ends in the second. -/
def EndsIn (j last : Json) : Prop := j.OnPath last ∧ last.Stops

/-- What is found by a look-up is a part of the members. -/
theorem sizeOf_lt_of_lookup {members : List (String × Json)} {name : String} {j : Json}
    (h : members.lookup name = some j) : sizeOf j < sizeOf members := by
  induction members with
  | nil => cases h
  | cons head rest ih =>
    obtain ⟨other, k⟩ := head
    rw [List.lookup_cons] at h
    split at h
    · cases h
      simp only [List.cons.sizeOf_spec, Prod.mk.sizeOf_spec]
      omega
    · have hrest := ih h
      simp only [List.cons.sizeOf_spec]
      omega

/-- **A step leads to a part of the value.** -/
theorem LeadsTo.sizeOf_lt {j k : Json} (h : LeadsTo j k) : sizeOf k < sizeOf j := by
  cases h with
  | first k rest =>
    simp only [array.sizeOf_spec, List.cons.sizeOf_spec]
    omega
  | items hmap hitems =>
    have hpart := sizeOf_lt_of_lookup hitems
    simp only [object.sizeOf_spec]
    omega

/-- From a value there is one step at most. -/
theorem leadsTo_rightUnique : Relator.RightUnique LeadsTo := by
  intro j k l hk hl
  cases hk with
  | first k rest =>
    cases hl
    rfl
  | items hmap hitems =>
    cases hl with
    | items _ hother => exact Option.some.inj (hitems.symm.trans hother)

/-- A path that stops at once does not lead anywhere else. -/
theorem Stops.eq_of_onPath {j k : Json} (h : j.Stops) (hpath : j.OnPath k) : k = j := by
  rcases hpath.cases_head with hsame | ⟨l, hstep, -⟩
  · exact hsame.symm
  · exact absurd hstep (h l)

/-- **Every path has an end.** -/
theorem exists_endsIn (j : Json) : ∃ last, j.EndsIn last := by
  by_cases hstops : j.Stops
  · exact ⟨j, .refl, hstops⟩
  · obtain ⟨k, hk⟩ := Classical.not_forall.mp hstops
    have hstep : LeadsTo j k := Classical.not_not.mp hk
    obtain ⟨last, hpath, hlast⟩ := exists_endsIn k
    exact ⟨last, .head hstep hpath, hlast⟩
termination_by sizeOf j
decreasing_by exact hstep.sizeOf_lt

/-- **It has no other.** -/
theorem EndsIn.unique {j last other : Json} (h : j.EndsIn last) (hother : j.EndsIn other) :
    other = last := by
  rcases Relation.ReflTransGen.total_of_right_unique leadsTo_rightUnique h.1 hother.1 with
    hpath | hpath
  · exact h.2.eq_of_onPath hpath
  · exact (hother.2.eq_of_onPath hpath).symm

end Json

/-! ## What stands at an end -/

/-- The column type that is found at the end of a path. -/
inductive ColumnType.FoundAt : ColumnType → Json → Prop
  | name (text : String) : FoundAt (ColumnType.ofName text) (.string text)
  | map {members : List (String × Json)} (hmap : TypeShape.isMapObject members = true) :
      FoundAt ColumnType.textMap (.object members)

/-- A column type is found at the names and at the map objects. -/
theorem ColumnType.exists_foundAt_iff (last : Json) :
    (∃ type : ColumnType, type.FoundAt last) ↔
      (∃ name, last = .string name) ∨
        ∃ members, last = .object members ∧ TypeShape.isMapObject members = true := by
  constructor
  · rintro ⟨type, hfound⟩
    cases hfound with
    | name text => exact .inl ⟨text, rfl⟩
    | map hmap => exact .inr ⟨_, rfl, hmap⟩
  · rintro (⟨name, rfl⟩ | ⟨members, rfl, hmap⟩)
    · exact ⟨_, .name name⟩
    · exact ⟨_, .map hmap⟩

/-- The fault that is found at the end of a path on which there is no column type. -/
inductive TypeFault.FoundAt : TypeFault → Json → Prop
  | emptyUnion : FoundAt .emptyUnion (.array [])
  | missingItems {members : List (String × Json)}
      (hmap : TypeShape.isMapObject members = false) (hitems : members.lookup "items" = none) :
      FoundAt (.missingItems (.object members)) (.object members)
  | unsupported {j : Json} (h : j = .null ∨ (∃ b, j = .bool b) ∨ ∃ n, j = .number n) :
      FoundAt (.unsupported j) j

/-- The explanation of a fault shows the value at which it is found. -/
theorem TypeFault.FoundAt.message_eq {fault : TypeFault} {last : Json} :
    fault.FoundAt last → fault.message =
      match last with
      | .array _ => "union type has no members"
      | .object _ => "nested type has no `items` member: " ++ last.compact
      | _ => "unsupported field type: " ++ last.compact := by
  intro h
  cases h with
  | emptyUnion => rfl
  | missingItems hmap hitems => rfl
  | unsupported hscalar => rcases hscalar with rfl | ⟨b, rfl⟩ | ⟨n, rfl⟩ <;> rfl

/-- **A path stops where a column type or a fault is found.** -/
theorem Json.Stops.found {j : Json} (h : j.Stops) :
    (∃ type : ColumnType, type.FoundAt j) ∨ ∃ fault : TypeFault, fault.FoundAt j := by
  cases j with
  | null => exact .inr ⟨_, .unsupported (.inl rfl)⟩
  | bool b => exact .inr ⟨_, .unsupported (.inr (.inl ⟨b, rfl⟩))⟩
  | number n => exact .inr ⟨_, .unsupported (.inr (.inr ⟨n, rfl⟩))⟩
  | string text => exact .inl ⟨_, .name text⟩
  | array elements =>
    cases elements with
    | nil => exact .inr ⟨_, .emptyUnion⟩
    | cons k rest => exact absurd (.first k rest) (h k)
  | object members =>
    cases hmap : TypeShape.isMapObject members with
    | true => exact .inl ⟨_, .map hmap⟩
    | false =>
      cases hitems : members.lookup "items" with
      | none => exact .inr ⟨_, .missingItems hmap hitems⟩
      | some k => exact absurd (.items hmap hitems) (h k)

/-! ## Reading by the end -/

namespace TypeShape

/-- A layer around a shape that the reduction to a column type takes off again. -/
def Layer (wrap : TypeShape → TypeShape) : Prop :=
  ∀ shape nullable, ((wrap shape).reduce nullable).1 = (shape.reduce nullable).1

/-- **What a value leads to decides what it is read as**, up to a layer; a fault is the same. -/
theorem ofJson_of_leadsTo {j k : Json} (h : Json.LeadsTo j k) :
    ∃ wrap, Layer wrap ∧ ofJson j = (ofJson k).map wrap := by
  cases h with
  | first k rest => exact ⟨union, fun _ _ => rfl, by rw [ofJson]⟩
  | items hmap hitems =>
    refine ⟨arrayOf, fun _ _ => rfl, ?_⟩
    rw [ofJson, if_neg (Bool.eq_false_iff.mp hmap), ofItems?_eq, hitems, Option.map_some]

/-- The same for everything that occurs on the path. -/
theorem ofJson_of_onPath {j k : Json} (h : j.OnPath k) :
    ∃ wrap, Layer wrap ∧ ofJson j = (ofJson k).map wrap := by
  induction h using Relation.ReflTransGen.head_induction_on with
  | refl =>
    refine ⟨id, fun _ _ => rfl, ?_⟩
    cases ofJson k <;> rfl
  | head hstep _ ih =>
    obtain ⟨wrap, hwrap, hread⟩ := ih
    obtain ⟨outer, houter, hfirst⟩ := ofJson_of_leadsTo hstep
    refine ⟨outer ∘ wrap, fun shape nullable => (houter _ _).trans (hwrap _ _), ?_⟩
    rw [hfirst, hread]
    cases ofJson k <;> rfl

/-- **A column type that is found at the end** is the one of the whole value, whatever the flag. -/
theorem exists_shape_of_foundAt {j last : Json} {type : ColumnType} (h : j.OnPath last)
    (hfound : type.FoundAt last) :
    ∃ shape, ofJson j = .ok shape ∧ ∀ nullable, (shape.reduce nullable).1 = type := by
  obtain ⟨wrap, hwrap, hread⟩ := ofJson_of_onPath h
  cases hfound with
  | name text =>
    rw [ofJson] at hread
    exact ⟨_, hread, fun nullable => hwrap (scalar text) nullable⟩
  | map hmap =>
    rw [ofJson, if_pos hmap] at hread
    exact ⟨_, hread, fun nullable => hwrap (map _ _) nullable⟩

/-- **A fault that is found at the end** is the fault of the whole value. -/
theorem ofJson_eq_error_of_foundAt {j last : Json} {fault : TypeFault} (h : j.OnPath last)
    (hfound : fault.FoundAt last) : ofJson j = .error fault := by
  have hlast : ofJson last = .error fault := by
    cases hfound with
    | emptyUnion => rw [ofJson]
    | missingItems hmap hitems =>
      rw [ofJson, if_neg (Bool.eq_false_iff.mp hmap), ofItems?_eq, hitems, Option.map_none]
    | unsupported hscalar =>
      rcases hscalar with rfl | ⟨b, rfl⟩ | ⟨n, rfl⟩ <;> rw [ofJson]
  obtain ⟨wrap, -, hread⟩ := ofJson_of_onPath h
  rw [hread, hlast]
  rfl

/-- Of a value with a shape, the column type stands at the end of the path. -/
theorem foundAt_of_ofJson {j last : Json} {shape : TypeShape} (hend : j.EndsIn last)
    (h : ofJson j = .ok shape) (nullable : Bool) : (shape.reduce nullable).1.FoundAt last := by
  rcases hend.2.found with ⟨type, hfound⟩ | ⟨fault, hfound⟩
  · obtain ⟨other, hread, htype⟩ := exists_shape_of_foundAt hend.1 hfound
    have hsame : shape = other := Except.ok.inj (h.symm.trans hread)
    rw [hsame, htype]
    exact hfound
  · have hread := ofJson_eq_error_of_foundAt hend.1 hfound
    rw [h] at hread
    cases hread

/-- Of any other value, the fault does. -/
theorem foundAt_of_ofJson_eq_error {j last : Json} {fault : TypeFault} (hend : j.EndsIn last)
    (h : ofJson j = .error fault) : fault.FoundAt last := by
  rcases hend.2.found with ⟨type, hfound⟩ | ⟨other, hfound⟩
  · obtain ⟨shape, hread, -⟩ := exists_shape_of_foundAt hend.1 hfound
    rw [h] at hread
    cases hread
  · have hread := ofJson_eq_error_of_foundAt hend.1 hfound
    have hsame : fault = other := Except.error.inj (h.symm.trans hread)
    rw [hsame]
    exact hfound

/-- **The end of the path decides the reading of a raw type.**  The path through a value has one
end.  The value has a shape exactly when the end is a name or a map object.  Then the column type,
whatever the flag, is the one that the name stands for, or the map from texts to texts; and the
column is nullable exactly when the flag says so or an array occurs on the path.  Otherwise the
fault is the one that is found at the end, and its explanation shows the end and not what leads to
it. -/
theorem path_end_decides (j : Json) :
    ∃ last, j.EndsIn last ∧ (∀ other, j.EndsIn other → other = last) ∧
      ((∃ shape, ofJson j = .ok shape) ↔
        (∃ name, last = .string name) ∨
          ∃ members, last = .object members ∧ isMapObject members = true) ∧
      (∀ shape nullable, ofJson j = .ok shape →
        (shape.reduce nullable).1.FoundAt last ∧
        ((shape.reduce nullable).2 = true ↔ nullable = true ∨ j.MeetsArray)) ∧
      (∀ fault, ofJson j = .error fault ↔ fault.FoundAt last) ∧
      ∀ fault, ofJson j = .error fault → fault.message =
        match last with
        | .array _ => "union type has no members"
        | .object _ => "nested type has no `items` member: " ++ last.compact
        | _ => "unsupported field type: " ++ last.compact := by
  obtain ⟨last, hend⟩ := j.exists_endsIn
  refine ⟨last, hend, fun other h => hend.unique h, ?_, ?_, ?_, ?_⟩
  · rw [← ColumnType.exists_foundAt_iff]
    constructor
    · rintro ⟨shape, h⟩
      exact ⟨_, foundAt_of_ofJson hend h false⟩
    · rintro ⟨type, htype⟩
      obtain ⟨shape, hread, -⟩ := exists_shape_of_foundAt hend.1 htype
      exact ⟨shape, hread⟩
  · intro shape nullable h
    exact ⟨foundAt_of_ofJson hend h nullable, (ofJson_eq_ok_iff.mp h).reduce_nullable_iff nullable⟩
  · intro fault
    exact ⟨foundAt_of_ofJson_eq_error hend, ofJson_eq_error_of_foundAt hend.1⟩
  · intro fault h
    exact (foundAt_of_ofJson_eq_error hend h).message_eq

end TypeShape

end PipelineEditor
