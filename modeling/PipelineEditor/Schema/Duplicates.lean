import PipelineEditor.Schema.Stored

/-!
# Problems of a stored schema

A stored schema is checked whenever it changes.  What is found is shown and blocks nothing.  The
one thing to find is a name that several fields share; what does not read as a schema has no
problems.

* `Problem`, `Problem.message` — what can be wrong, and how it is explained;
* `allFresh` — the names gone through once, against those seen before;
* `hasRepetition` — what comes of it, in terms of the names alone;
* `problems` — **the problems of a stored text**.
-/

namespace PipelineEditor

/-- Something wrong with a schema. -/
inductive Problem where
  | sharedName
  deriving DecidableEq, Repr

/-- The explanation of a problem. -/
def Problem.message : Problem → String
  | sharedName => "There are two or more fields with the same name."

/-- Goes through names and puts each one to those seen before; the first that has been seen already
ends it.  Whether none has been. -/
def allFresh (seen : List String) : List String → Bool
  | [] => true
  | name :: rest => !seen.contains name && allFresh (name :: seen) rest

/-- What the names seen before and those still to come have to do with each other. -/
theorem allFresh_iff {seen names : List String} :
    allFresh seen names = true ↔ names.Nodup ∧ ∀ name ∈ seen, name ∉ names := by
  induction names generalizing seen with
  | nil => simp [allFresh]
  | cons name rest ih =>
    have hstep : allFresh seen (name :: rest) = true ↔
        name ∉ seen ∧ allFresh (name :: seen) rest = true := by
      simp [allFresh]
    rw [hstep, ih, List.nodup_cons, List.forall_mem_cons]
    constructor
    · rintro ⟨hnew, hrest, hname, hseen⟩
      refine ⟨⟨hname, hrest⟩, fun other hother => List.not_mem_cons_of_ne_of_not_mem ?_ ?_⟩
      · rintro rfl
        exact hnew hother
      · exact hseen other hother
    · rintro ⟨⟨hname, hrest⟩, hseen⟩
      refine ⟨fun hold => hseen name hold List.mem_cons_self, hrest, hname, fun other hother => ?_⟩
      exact fun hlater => hseen other hother (List.mem_cons_of_mem name hlater)

/-- Whether a name occurs twice in a list. -/
def hasRepetition (names : List String) : Bool := !allFresh [] names

/-- A list has a repetition exactly when its entries are not pairwise distinct. -/
theorem hasRepetition_eq_false_iff (names : List String) :
    hasRepetition names = false ↔ names.Nodup := by
  simp [hasRepetition, allFresh_iff]

/-- Looking back at the names before comes to the same as looking ahead at those to come. -/
theorem hasRepetition_cons (name : String) (rest : List String) :
    hasRepetition (name :: rest) = (rest.contains name || hasRepetition rest) := by
  have hboth : hasRepetition (name :: rest) = true ↔ name ∈ rest ∨ hasRepetition rest = true := by
    rw [← Bool.not_eq_false, ← Bool.not_eq_false, hasRepetition_eq_false_iff,
      hasRepetition_eq_false_iff, List.nodup_cons, Decidable.not_and_iff_or_not, Decidable.not_not]
  rw [Bool.eq_iff_iff, Bool.or_eq_true, List.contains_iff_mem, hboth]

/-- The problems of a stored text. -/
def problems (text : Option String) : List Problem :=
  match storedFields? text with
  | some fields => if hasRepetition (fields.map StoredField.name) then [.sharedName] else []
  | none => []

/-- The explanations of the problems of a stored text. -/
def problemMessages (text : Option String) : List String := (problems text).map Problem.message

end PipelineEditor
