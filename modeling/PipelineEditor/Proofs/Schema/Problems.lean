import PipelineEditor.Proofs.Schema.Rewrite
import PipelineEditor.Schema.Duplicates

/-!
# Problems of a written schema

A stored schema is checked by reading its text again, and what is looked for is a name that two of
its fields share.  The text that rows are written as has a field for each of their named columns and
no others, with the names as they are.  So the check of such a text finds a problem exactly when two
of the named columns share a name; columns without a name and blank rows are not counted.

* `SharesName`, `sharesName_iff` — two fields at different places **with one name**;
* `problemMessages_of_sharesName` — what is told of such fields;
* `problemMessages_eq_nil_iff` — when a text **has no problem**;
* `problemMessages_schemaText?` — when the text of rows has none.
-/

namespace PipelineEditor

/-- Two of the fields, at different places, have one name. -/
def SharesName (fields : List StoredField) : Prop :=
  ∃ (i j : Nat) (f g : StoredField),
    i ≠ j ∧ fields[i]? = some f ∧ fields[j]? = some g ∧ f.name = g.name

theorem sharesName_iff (fields : List StoredField) :
    SharesName fields ↔ ¬ (fields.map StoredField.name).Nodup := by
  constructor
  · rintro ⟨i, j, f, g, hplaces, hf, hg, hname⟩ hdistinct
    have hi : (fields.map StoredField.name)[i]? = some f.name := by
      rw [List.getElem?_map, hf, Option.map_some]
    have hj : (fields.map StoredField.name)[j]? = some f.name := by
      rw [List.getElem?_map, hg, Option.map_some, hname]
    have hinside := (List.getElem?_eq_some_iff.mp hi).1
    exact hplaces ((List.getElem?_inj hinside hdistinct).mp (hi.trans hj.symm))
  · intro hrepeated
    refine Classical.byContradiction fun hnone => hrepeated (List.pairwise_iff_getElem.mpr ?_)
    intro i j hi hj hij hname
    rw [List.length_map] at hi hj
    rw [List.getElem_map, List.getElem_map] at hname
    exact hnone ⟨i, j, fields[i], fields[j], Nat.ne_of_lt hij, List.getElem?_eq_getElem hi,
      List.getElem?_eq_getElem hj, hname⟩

/-- Fields that share a name are told of, once. -/
theorem problemMessages_of_sharesName {text : Option String} {fields : List StoredField}
    (hread : storedFields? text = some fields) (hshared : SharesName fields) :
    problemMessages text = ["There are two or more fields with the same name."] := by
  have hrepeated : hasRepetition (fields.map StoredField.name) = true := by
    rw [sharesName_iff, ← hasRepetition_eq_false_iff, Bool.not_eq_false] at hshared
    exact hshared
  rw [problemMessages, problems, hread]
  simp only [hrepeated]
  rfl

/-- A text has no problem exactly when the fields that are read from it, if any are, have distinct
names. -/
theorem problemMessages_eq_nil_iff (text : Option String) :
    problemMessages text = [] ↔
      ∀ fields, storedFields? text = some fields → (fields.map StoredField.name).Nodup := by
  rw [problemMessages, List.map_eq_nil_iff, problems]
  cases storedFields? text with
  | none => exact iff_of_true rfl nofun
  | some fields =>
    simp only [Option.some.injEq, forall_eq', ← hasRepetition_eq_false_iff]
    cases hasRepetition (fields.map StoredField.name) with
    | false => exact iff_of_true rfl rfl
    | true => exact iff_of_false nofun nofun

/-- **The text of rows has no problem** exactly when their named columns have distinct names. -/
theorem problemMessages_schemaText? (rows : List EditorRow) :
    problemMessages (schemaText? rows) = [] ↔
      ((namedColumns (rows.filterMap EditorRow.column?)).map Column.name).Nodup := by
  cases htext : schemaText? rows with
  | none =>
    rw [(schemaText?_eq_none_iff rows).mp htext]
    exact iff_of_true rfl List.nodup_nil
  | some text =>
    rw [problemMessages_eq_nil_iff, storedFields?_schemaText? htext]
    simp only [Option.some.injEq, forall_eq', List.map_map]
    rfl

end PipelineEditor
