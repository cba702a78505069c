import PipelineEditor.Proofs.Session.Overwrite

/-!
# Values for different properties

Values for different properties do not get in each other's way.  Only a value for the watched
property does more than take its place: the schema is written again.  But that writing looks at
nothing except the stored schema and the watched property, and it touches nothing except the schema
and its copy, while at most one property is watched.  So two values may change places, whatever the
editor watches, and with them a whole row of values for different properties can be given in any
order.  The property of the schema is left out of this: a value for it is the schema, which the
watched property has written again or withdrawn.

* `given` — the session after a value for a property that does not store the schema;
* `rebuilt?_withProperty` — what a writing of the schema does not look at;
* `rewritten_withProperty` — **writing the schema again and a value for another property change
  places**;
* `given_given`, `handle_setProperty_comm` — **so do any two values**;
* `values_in_any_order` — **a row of values for different properties, in any order**.
-/

namespace PipelineEditor.Session

/-! ## One value -/

/-- The session after a value for a property that does not store the schema. -/
def given (s : Session) (key value : String) : Session :=
  if s.Rewrites key then s.rewritten key value else s.withProperty key value

theorem given_of_rewrites {s : Session} {key : String} (h : s.Rewrites key) (value : String) :
    s.given key value = s.rewritten key value :=
  if_pos h

theorem given_of_not_rewrites {s : Session} {key : String} (h : ¬ s.Rewrites key)
    (value : String) : s.given key value = s.withProperty key value :=
  if_neg h

/-- An open session answers with this state. -/
theorem handle_eq_given {s : Session} (hopen : s.closed = false) {key : String}
    (hkey : s.schemaKey? ≠ some key) (value : String) :
    (s.handle (.setProperty key value)).1 = s.given key value := by
  obtain ⟨-, hrewrites, hplain⟩ := handle_setProperty hopen key value
  by_cases h : s.Rewrites key
  · rw [given_of_rewrites h, hrewrites h]
  · rw [given_of_not_rewrites h, hplain hkey h]

/-- A value changes neither what is watched nor the property of the schema. -/
theorem rewrites_given (s : Session) (key value other : String) :
    (s.given key value).Rewrites other ↔ s.Rewrites other := by
  unfold given
  split
  · exact Iff.rfl
  · exact Iff.rfl

/-- At most one property has the schema written again. -/
theorem Rewrites.unique {s : Session} {first second : String} (hfirst : s.Rewrites first)
    (hsecond : s.Rewrites second) : first = second :=
  Option.some.inj (hfirst.2.1.symm.trans hsecond.2.1)

/-! ## Two values -/

theorem withProperty_comm (s : Session) {first second : String} (h : first ≠ second)
    (v w : String) :
    (s.withProperty first v).withProperty second w =
      (s.withProperty second w).withProperty first v := by
  have hinsert := s.node.properties.insert_comm v w h
  show { s with node := { s.node with
    properties := (s.node.properties.insert first v).insert second w } } = _
  rw [hinsert]
  rfl

/-- **What a writing of the schema does not look at**: properties that are not watched. -/
theorem rebuilt?_withProperty {s : Session} {key : String} (hkey : s.editor.watched ≠ some key)
    (value : String) : (s.withProperty key value).rebuilt? = s.rebuilt? := by
  have hsuppressed : s.editor.suppressed (s.withProperty key value).node.properties =
      s.editor.suppressed s.node.properties := schemaImplied_withProperty value hkey
  show s.editor.build? (storedFields? s.node.schema) (s.withProperty key value).node.properties = _
  unfold rebuilt? SchemaEditor.build?
  rw [hsuppressed]

/-- **Writing the schema again and a value for another property change places.** -/
theorem rewritten_withProperty {s : Session} {key other : String} (hrewrites : s.Rewrites key)
    (hne : key ≠ other) (hother : s.schemaKey? ≠ some other) (v w : String) :
    (s.rewritten key v).withProperty other w = (s.withProperty other w).rewritten key v := by
  have hwatched : (s.withProperty key v).editor.watched ≠ some other := by
    intro h
    exact hne (Option.some.inj (hrewrites.2.1.symm.trans h))
  have hkept : (s.withProperty key v).schemaKey? ≠ some other := hother
  calc (s.rewritten key v).withProperty other w
      = ((s.withProperty key v).withProperty other w).withSchema
          (s.withProperty key v).rebuilt? := withSchema_withProperty hkept _ w
    _ = ((s.withProperty key v).withProperty other w).withSchema
          ((s.withProperty key v).withProperty other w).rebuilt? := by
        rw [rebuilt?_withProperty hwatched]
    _ = (s.withProperty other w).rewritten key v := by
        rw [withProperty_comm s hne, rewritten]

/-- **Two values for different properties change places**, also if one of the properties is
watched. -/
theorem given_given {s : Session} {first second : String} (hne : first ≠ second)
    (hfirst : s.schemaKey? ≠ some first) (hsecond : s.schemaKey? ≠ some second) (v w : String) :
    (s.given first v).given second w = (s.given second w).given first v := by
  have hfirstStill := rewrites_given s second w first
  have hsecondStill := rewrites_given s first v second
  by_cases hone : s.Rewrites first
  · have htwo : ¬ s.Rewrites second := fun h => hne (hone.unique h)
    rw [given_of_not_rewrites (mt hsecondStill.mp htwo), given_of_rewrites hone,
      given_of_rewrites (hfirstStill.mpr hone), given_of_not_rewrites htwo]
    exact rewritten_withProperty hone hne hsecond v w
  · rw [given_of_not_rewrites (mt hfirstStill.mp hone), given_of_not_rewrites hone]
    by_cases htwo : s.Rewrites second
    · rw [given_of_rewrites htwo, given_of_rewrites]
      · exact (rewritten_withProperty htwo hne.symm hfirst w v).symm
      · exact htwo
    · rw [given_of_not_rewrites htwo, given_of_not_rewrites]
      · exact withProperty_comm s hne v w
      · exact htwo

/-- **Two values for different properties are taken in either order.** -/
theorem handle_setProperty_comm (s : Session) {first second : String} (hne : first ≠ second)
    (hfirst : s.schemaKey? ≠ some first) (hsecond : s.schemaKey? ≠ some second) (v w : String) :
    ((s.handle (.setProperty first v)).1.handle (.setProperty second w)).1 =
      ((s.handle (.setProperty second w)).1.handle (.setProperty first v)).1 := by
  cases hclosed : s.closed with
  | true =>
    have hstill : ∀ op, (s.handle op).1 = s := fun op => (step_handle s op).of_closed hclosed
    rw [hstill, hstill, hstill]
  | false =>
    have hnext : ∀ key value, (s.handle (.setProperty key value)).1.closed = false ∧
        (s.handle (.setProperty key value)).1.schemaKey? = s.schemaKey? := by
      intro key value
      have hstep := step_handle s (.setProperty key value)
      exact ⟨(hstep.closed_eq Operation.noConfusion).trans hclosed,
        (hstep.held fun _ => Operation.noConfusion).2.1⟩
    rw [handle_eq_given (hnext first v).1 ((hnext first v).2 ▸ hsecond),
      handle_eq_given (hnext second w).1 ((hnext second w).2 ▸ hfirst),
      handle_eq_given hclosed hfirst, handle_eq_given hclosed hsecond]
    exact given_given hne hfirst hsecond v w

/-! ## A row of values -/

/-- The operation that gives a property its value. -/
def assignment (entry : String × String) : Operation := .setProperty entry.1 entry.2

/-- **Values for different properties can be given in any order**, in every state, as long as none
of the properties stores the schema.  Two of them lead to the same session whichever comes first,
also when one of the properties is watched, and so does a row of them after any rearrangement. -/
theorem values_in_any_order (s : Session) :
    (∀ first second v w : String, first ≠ second → s.schemaKey? ≠ some first →
      s.schemaKey? ≠ some second →
      ((s.handle (.setProperty first v)).1.handle (.setProperty second w)).1 =
        ((s.handle (.setProperty second w)).1.handle (.setProperty first v)).1) ∧
    ∀ entries reordered : List (String × String), entries.Perm reordered →
      (entries.map Prod.fst).Nodup → (∀ e ∈ entries, s.schemaKey? ≠ some e.1) →
      (s.run (entries.map assignment)).1 = (s.run (reordered.map assignment)).1 := by
  refine ⟨fun first second v w hne hfirst hsecond =>
    handle_setProperty_comm s hne hfirst hsecond v w, ?_⟩
  intro entries reordered hperm hdistinct hkept
  induction hperm generalizing s with
  | nil => rfl
  | cons entry hrest ih =>
    have hkey := ((step_handle s (assignment entry)).held fun _ => Operation.noConfusion).2.1
    refine ih (s.handle (assignment entry)).1 (List.nodup_cons.mp hdistinct).2 fun e he => ?_
    rw [hkey]
    exact hkept e (List.mem_cons_of_mem entry he)
  | swap first second rest =>
    have hne : second.1 ≠ first.1 := by
      intro h
      exact (List.nodup_cons.mp hdistinct).1 (h ▸ List.mem_cons_self)
    have hpair := handle_setProperty_comm s hne (hkept second List.mem_cons_self)
      (hkept first (List.mem_cons_of_mem second List.mem_cons_self)) second.2 first.2
    exact congrArg (fun t : Session => (t.run (rest.map assignment)).1) hpair
  | trans hfirst _ ihfirst ihsecond =>
    refine (ihfirst s hdistinct hkept).trans (ihsecond s ?_ ?_)
    · exact (hfirst.map Prod.fst).nodup_iff.mp hdistinct
    · intro e he
      exact hkept e (hfirst.mem_iff.mpr he)

/-- A name and a format that implies a schema, on a configured stream: the schema is withdrawn
either way, and both values are there. -/
theorem values_in_any_order_stream :
    let s := (streamSession.run bodyOperations).1
    s.Rewrites "format" ∧ s.schemaKey? = some "schema" ∧ s.node.schema ≠ none ∧
      ((s.handle (.setProperty "format" "clf")).1.handle (.setProperty "name" "visits")).1 =
        ((s.handle (.setProperty "name" "visits")).1.handle (.setProperty "format" "clf")).1 ∧
      ((s.handle (.setProperty "name" "visits")).1.handle (.setProperty "format" "clf")).1.node.schema
        = none := by
  intro s
  have hkey : s.schemaKey? = some "schema" := by decide
  refine ⟨by decide, hkey, by decide +kernel, ?_, by decide +kernel⟩
  refine (values_in_any_order s).1 "format" "name" "clf" "visits" (by decide) ?_ ?_
  · rw [hkey]
    decide
  · rw [hkey]
    decide

end PipelineEditor.Session
