import Mathlib.Logic.Relation
import PipelineEditor.Schema.TypeShape

/-!
# The path through a raw type

A raw type is read along a path: from an array to its first member, and from an object that is no
map object to its items.  A value has a shape when the path ends in a name or in a map object.
The column type is found at the end of the path alone.  The nullable flag is not: it is raised by
every array on the way, and by nothing else.

* `Json.LeadsTo`, `Json.OnPath` — one step; what occurs on the path;
* `Json.MeetsArray` — whether an array occurs on the path;
* `TypeShape.Spells` — the rules of the reading; `TypeShape.ofJson_eq_ok_iff` — **a value is read
  with a shape exactly when it spells the shape**;
* `TypeShape.reduce_type` — **the column type does not depend on the flag**;
* `TypeShape.Spells.reduce_nullable_iff` — **the flag after the reduction is the flag before it, or
  an array occurs on the path**.
-/

namespace PipelineEditor

/-! ## Paths -/

namespace Json

/-- One step towards the end of a raw type. -/
inductive LeadsTo : Json → Json → Prop
  /-- From an array to its first member. -/
  | first (j : Json) (rest : List Json) : LeadsTo (.array (j :: rest)) j
  /-- From an object that is no map object to its items. -/
  | items {members : List (String × Json)} {j : Json}
      (hmap : TypeShape.isMapObject members = false) (hitems : members.lookup "items" = some j) :
      LeadsTo (.object members) j

/-- The second value occurs on the path through the first. -/
def OnPath : Json → Json → Prop := Relation.ReflTransGen LeadsTo

/-- An array occurs on the path through a value. -/
def MeetsArray (j : Json) : Prop := ∃ elements, j.OnPath (.array elements)

theorem meetsArray_array (elements : List Json) : (array elements).MeetsArray :=
  ⟨elements, .refl⟩

/-- No array occurs on a path that ends at once in something else. -/
theorem not_meetsArray_of_end {j : Json} (hend : ∀ k, ¬ LeadsTo j k)
    (harray : ∀ elements, j ≠ .array elements) : ¬ j.MeetsArray := by
  rintro ⟨elements, hpath⟩
  rcases hpath.cases_head with rfl | ⟨k, hstep, -⟩
  · exact harray elements rfl
  · exact hend k hstep

/-- The path through an object goes on with its items. -/
theorem meetsArray_object_iff {members : List (String × Json)} {items : Json}
    (hmap : TypeShape.isMapObject members = false)
    (hitems : members.lookup "items" = some items) :
    (object members).MeetsArray ↔ items.MeetsArray := by
  constructor
  · rintro ⟨elements, hpath⟩
    rcases hpath.cases_head with hsame | ⟨k, hstep, hrest⟩
    · cases hsame
    · cases hstep with
      | items _ hk =>
        have hkey : items = k := Option.some.inj (hitems.symm.trans hk)
        exact ⟨elements, hkey ▸ hrest⟩
  · rintro ⟨elements, hpath⟩
    exact ⟨elements, .head (.items hmap hitems) hpath⟩

end Json

/-! ## Shapes -/

namespace TypeShape

/-- The items of an object are found by look-up. -/
theorem ofItems?_eq (members : List (String × Json)) :
    ofItems? members = (members.lookup "items").map ofJson := by
  induction members with
  | nil => rfl
  | cons head rest ih =>
    obtain ⟨name, j⟩ := head
    by_cases hname : name = "items"
    · subst hname
      rw [ofItems?, if_pos rfl, Entries.lookup_cons_self]
      rfl
    · rw [ofItems?, if_neg hname, ih, Entries.lookup_cons_of_ne j rest (Ne.symm hname)]

/-- A raw type spells a shape: the rules of the reading, one for each shape. -/
inductive Spells : Json → TypeShape → Prop
  | scalar (name : String) : Spells (.string name) (.scalar name)
  | union {first : Json} {shape : TypeShape} (rest : List Json) (hfirst : Spells first shape) :
      Spells (.array (first :: rest)) (.union shape)
  | map {members : List (String × Json)} (hmap : isMapObject members = true) :
      Spells (.object members) (.map (memberName members "keys") (memberName members "values"))
  | arrayOf {members : List (String × Json)} {items : Json} {shape : TypeShape}
      (hmap : isMapObject members = false) (hlookup : members.lookup "items" = some items)
      (hitems : Spells items shape) : Spells (.object members) (.arrayOf shape)

/-- A value that is read with a shape spells it.  The induction is that of the reading; of the
members of an object it speaks about the items only. -/
theorem spells_of_ofJson (j : Json) : ∀ shape, ofJson j = .ok shape → Spells j shape := by
  induction j using ofJson.induct (motive_2 := fun members => ∀ items shape,
    members.lookup "items" = some items → ofJson items = .ok shape → Spells items shape) with
  | case1 name =>
    intro shape h
    rw [ofJson] at h
    cases h
    exact .scalar name
  | case2 | case7 | case8 | case9 =>
    intro shape h
    rw [ofJson] at h
    cases h
  | case3 first rest ih =>
    intro shape h
    rw [ofJson] at h
    cases hfirst : ofJson first with
    | error fault => rw [hfirst] at h; cases h
    | ok inner =>
      rw [hfirst] at h
      cases h
      exact .union rest (ih inner hfirst)
  | case4 members hmap =>
    intro shape h
    rw [ofJson, if_pos hmap] at h
    cases h
    exact .map hmap
  | case5 members hmap read hread ih =>
    intro shape h
    rw [ofJson, if_neg hmap, hread] at h
    rw [ofItems?_eq] at hread
    obtain ⟨items, hlookup, rfl⟩ := Option.map_eq_some_iff.mp hread
    cases hitems : ofJson items with
    | error fault => rw [hitems] at h; cases h
    | ok inner =>
      rw [hitems] at h
      cases h
      exact .arrayOf (Bool.eq_false_iff.mpr hmap) hlookup (ih items inner hlookup hitems)
  | case6 members hmap hread _ =>
    intro shape h
    rw [ofJson, if_neg hmap, hread] at h
    cases h
  | case10 items shape hlookup _ => cases hlookup
  | case11 j rest ih items shape hlookup hitems =>
    rw [Entries.lookup_cons_self] at hlookup
    cases hlookup
    exact ih shape hitems
  | case12 name j rest hname ih items shape hlookup hitems =>
    rw [Entries.lookup_cons_of_ne j rest (Ne.symm hname)] at hlookup
    exact ih items shape hlookup hitems

/-- **A value is read with a shape exactly when it spells the shape.** -/
theorem ofJson_eq_ok_iff {j : Json} {shape : TypeShape} :
    ofJson j = .ok shape ↔ Spells j shape := by
  constructor
  · exact spells_of_ofJson j shape
  · intro h
    induction h with
    | scalar name => rw [ofJson]
    | union rest hfirst ih =>
      rw [ofJson, ih]
      rfl
    | map hmap => rw [ofJson, if_pos hmap]
    | arrayOf hmap hlookup hitems ih =>
      rw [ofJson, if_neg (Bool.eq_false_iff.mp hmap), ofItems?_eq, hlookup, Option.map_some, ih]
      rfl

/-- **The column type does not depend on the flag.** -/
theorem reduce_type (shape : TypeShape) (a b : Bool) :
    (shape.reduce a).1 = (shape.reduce b).1 := by
  induction shape with
  | scalar name => rfl
  | union first ih => exact ih
  | map keys values => rfl
  | arrayOf items ih => exact ih

/-- **The flag after the reduction** is the flag before it, or an array occurs on the path. -/
theorem Spells.reduce_nullable_iff {j : Json} {shape : TypeShape} (h : Spells j shape)
    (nullable : Bool) : (shape.reduce nullable).2 = true ↔ nullable = true ∨ j.MeetsArray := by
  induction h with
  | scalar name =>
    have hpath : ¬ (Json.string name).MeetsArray := Json.not_meetsArray_of_end nofun nofun
    exact (or_iff_left hpath).symm
  | union rest hfirst ih =>
    constructor
    · exact fun _ => .inr (Json.meetsArray_array _)
    · exact fun _ => rfl
  | @map members hmap =>
    have hpath : ¬ (Json.object members).MeetsArray := by
      refine Json.not_meetsArray_of_end ?_ nofun
      rintro k (_ | ⟨hother, _⟩)
      exact absurd (hmap.symm.trans hother) (by decide)
    exact (or_iff_left hpath).symm
  | arrayOf hmap hlookup hitems ih =>
    rw [Json.meetsArray_object_iff hmap hlookup]
    exact ih

end TypeShape

end PipelineEditor
