import Mathlib.Data.List.TakeWhile
import PipelineEditor.Column.Type

/-!
# The names of column types

A name stands for a map type when, without the blanks around it, it is `map<` and `>` around two
arguments, and the first comma separates them.  The arguments lose the blanks around them, so that
the first has no comma and the second follows a comma and one blank when the type is named again.
Any other name stands for the scalar type of that very name.

* `ColumnType.mapArguments?_eq_some_iff` — the names that stand for map types;
* `ColumnType.ofName_name_map` — what the name of a map type stands for;
* `ColumnType.ofName_name_ofName` — **a type that a name stands for has a name that stands for
  it**.
-/

namespace PipelineEditor.ColumnType

open Text

/-! ## The form of a map type -/

theorem afterMapMark?_eq_some_iff {cs rest : List Char} :
    afterMapMark? cs = some rest ↔ cs = 'm' :: 'a' :: 'p' :: '<' :: rest := by
  unfold afterMapMark?
  split <;> simp_all

theorem beforeFinalAngle?_eq_some_iff {cs inner : List Char} :
    beforeFinalAngle? cs = some inner ↔ cs = inner ++ ['>'] := by
  unfold beforeFinalAngle?
  split
  next rest hrest =>
    rw [List.reverse_eq_iff.mp hrest, List.reverse_cons]
    simp
  next hother =>
    refine ⟨nofun, fun h => (hother inner.reverse ?_).elim⟩
    rw [h, List.reverse_append]
    rfl

theorem splitAtComma?_eq_some_iff {cs before after : List Char} :
    splitAtComma? cs = some (before, after) ↔ cs = before ++ ',' :: after ∧ ',' ∉ before := by
  constructor
  · intro h
    unfold splitAtComma? at h
    split at h
    next c rest hrest =>
      cases h
      have hc : c = ',' := by
        have hhead := List.head?_dropWhile_not (· ≠ ',') cs
        rw [hrest] at hhead
        simpa using hhead
      subst hc
      refine ⟨?_, fun hmem => by simpa using List.mem_takeWhile_imp hmem⟩
      rw [← hrest, List.takeWhile_append_dropWhile]
    · cases h
  · rintro ⟨rfl, hbefore⟩
    have hkeep : ∀ c ∈ before, decide (c ≠ ',') = true := fun c hc =>
      decide_eq_true fun hcomma => hbefore (hcomma ▸ hc)
    rw [splitAtComma?, List.dropWhile_append_of_pos hkeep, List.takeWhile_append_of_pos hkeep]
    simp

/-- A name has two arguments exactly when it has the form of a map type. -/
theorem mapArguments?_eq_some_iff {name : String} {keys values : List Char} :
    mapArguments? name = some (keys, values) ↔
      trimChars name.toList = "map<".toList ++ keys ++ ',' :: values ++ ['>'] ∧ ',' ∉ keys := by
  simp only [mapArguments?, Option.bind_eq_bind, Option.bind_eq_some_iff,
    afterMapMark?_eq_some_iff, beforeFinalAngle?_eq_some_iff, splitAtComma?_eq_some_iff]
  constructor
  · rintro ⟨_, hmark, _, rfl, rfl, hkeys⟩
    exact ⟨by rw [hmark]; simp, hkeys⟩
  · rintro ⟨hname, hkeys⟩
    exact ⟨_, by rw [hname]; simp, _, rfl, rfl, hkeys⟩

/-- The form of a map type has no blanks around it. -/
theorem trimChars_mapForm (arguments : List Char) :
    trimChars ("map<".toList ++ arguments ++ ['>']) = "map<".toList ++ arguments ++ ['>'] := by
  refine trimChars_eq_self (fun c hc => ?_) fun c hc => ?_
  · cases hc
    decide
  · rw [List.getLast?_concat] at hc
    cases hc
    decide

/-- The name of a map type has two arguments, a blank in front of the second. -/
theorem mapArguments?_name {keys values : List Char} (hkeys : ',' ∉ keys) :
    mapArguments? (map (String.ofList keys) (String.ofList values)).name =
      some (keys, ' ' :: values) := by
  have hform : (map (String.ofList keys) (String.ofList values)).name.toList =
      "map<".toList ++ (keys ++ ',' :: ' ' :: values) ++ ['>'] := by
    simp [ColumnType.name]
  refine mapArguments?_eq_some_iff.mpr ⟨?_, hkeys⟩
  rw [hform, trimChars_mapForm]
  simp only [List.append_assoc]

/-! ## Naming a type again -/

/-- The name of a map type stands for the map type without blanks around its arguments. -/
theorem ofName_name_map {keys values : List Char} (hkeys : ',' ∉ keys) :
    ofName (map (String.ofList keys) (String.ofList values)).name =
      .map (String.ofList (trimChars keys)) (String.ofList (trimChars values)) := by
  have hblank : isBlank ' ' = true := by decide
  rw [ofName, mapArguments?_name hkeys]
  show map _ _ = map _ _
  rw [trimChars_cons_of_isBlank hblank]

/-- **The name of a type that a name stands for stands for the same type.** -/
theorem ofName_name_ofName (name : String) : ofName (ofName name).name = ofName name := by
  cases hname : mapArguments? name with
  | none =>
    have hscalar : ofName name = .scalar name := by rw [ofName, hname]
    rw [hscalar]
    exact hscalar
  | some arguments =>
    obtain ⟨keys, values⟩ := arguments
    obtain ⟨-, hkeys⟩ := mapArguments?_eq_some_iff.mp hname
    have hmap : ofName name =
        .map (String.ofList (trimChars keys)) (String.ofList (trimChars values)) := by
      rw [ofName, hname]
    rw [hmap, ofName_name_map fun hmem => hkeys (mem_of_mem_trimChars hmem), trimChars_trimChars,
      trimChars_trimChars]

end PipelineEditor.ColumnType
