import Mathlib.Algebra.Field.Rat
import Mathlib.Data.List.Basic
import PipelineEditor.Proofs.Form.Defaults

/-!
# Which default values are written

A widget may have any JSON value as the default of its field.  Null, false, zero and the empty text
count as none; every other value has a text, which is the value itself for a text and its compact
form otherwise, and this text is never empty.  Of all the groups that list a field only one has a
say: the first one in the order of the layout that is defined.  What the groups after it have for
the field, and groups that the order does not name, are not looked at.

* `Number.toRat`, `Json.Vacant`, `Json.plainText` — the value of a number, **the values that are no
  default values**, and the text of a value;
* `defaultText?_eq_some_iff`, `defaultText?_ne_empty` — the text of a default value, which is not
  empty;
* `Layout.FirstLists` — the first group of a layout that lists a field;
* `WidgetConfig.groupOf?_eq_some_iff`, `WidgetConfig.groupOf?_congr` — the group that has a say, and
  that nothing after it has;
* `Form.default_written_iff` — **the value that is written into a property, and when**.
-/

namespace PipelineEditor

/-! ## Default values -/

/-- The value of a number. -/
def Number.toRat : Number → ℚ
  | int n _ => n
  | real x => (if x.negative then -1 else 1) * (x.significand * 2 ^ x.exponent)

/-- The numbers that equal zero are those with the value zero. -/
theorem Number.isZero_iff (n : Number) : n.isZero = true ↔ n.toRat = 0 := by
  cases n with
  | int n _ => simp [isZero, toRat]
  | real x =>
    have hsign : (if x.negative then -1 else 1 : ℚ) ≠ 0 := by split <;> decide
    have hpower : (2 : ℚ) ^ x.exponent ≠ 0 := zpow_ne_zero _ (by decide)
    rw [toRat, mul_eq_zero_iff_left hsign, mul_eq_zero_iff_right hpower, Nat.cast_eq_zero]
    exact beq_iff_eq

/-- No number is written as the empty text. -/
theorem Number.text_ne_nil (n : Number) : n.text ≠ [] := by
  cases n with
  | int n _ =>
    show intText n ≠ []
    unfold intText
    split
    · exact List.cons_ne_nil _ _
    · exact Nat.toDigits_ne_nil
  | real x =>
    -- each of the three forms has a point or an `e` in it
    have hdecimal : ∀ d, decimalText d ≠ [] := by
      intro d
      unfold decimalText withPoint
      split
      · simp
      · split <;> simp
    show realText x ≠ []
    unfold realText
    by_cases hzero : x.isZero = true <;> by_cases hsign : x.negative = true <;>
      simp [hzero, hsign, hdecimal]

namespace Json

/-- The values that are no default values: null, false, the empty text, and what equals zero. -/
inductive Vacant : Json → Prop
  | null : Vacant .null
  | no : Vacant (.bool false)
  | text : Vacant (.string "")
  | zero {n : Number} (h : n.toRat = 0) : Vacant (.number n)

/-- The text of a value: a text itself, and the compact form of any other value. -/
def plainText : Json → String
  | string s => s
  | j => j.compact

/-- No value has the empty text as its compact form. -/
theorem compact_ne_empty (j : Json) : j.compact ≠ "" := by
  have hchars : j.compactChars ≠ [] := by
    cases j with
    | null => exact List.cons_ne_nil _ _
    | bool b => cases b <;> exact List.cons_ne_nil _ _
    | number n => exact n.text_ne_nil
    | string s => exact List.cons_ne_nil _ _
    | array elements => cases elements <;> exact List.cons_ne_nil _ _
    | object members => cases members <;> exact List.cons_ne_nil _ _
  rw [compact, ne_eq, String.ofList_eq_empty_iff]
  exact hchars

/-- The empty text is the only value whose text is empty. -/
theorem plainText_ne_empty {j : Json} (h : ¬ j.Vacant) : j.plainText ≠ "" := by
  cases j with
  | string s =>
    rintro rfl
    exact h .text
  | _ => exact compact_ne_empty _

end Json

/-- **A value has a text as a default value** unless it is one of those that are none, and the text
is its own. -/
theorem defaultText?_eq_some_iff {j : Json} {text : String} :
    defaultText? j = some text ↔ ¬ j.Vacant ∧ text = j.plainText := by
  cases j with
  | null => exact ⟨nofun, fun h => absurd .null h.1⟩
  | bool b =>
    cases b with
    | false => exact ⟨nofun, fun h => absurd .no h.1⟩
    | true => exact ⟨fun h => ⟨nofun, (Option.some.inj h).symm⟩, fun h => congrArg some h.2.symm⟩
  | number n =>
    rw [defaultText?]
    by_cases hzero : n.isZero = true
    · rw [if_pos hzero]
      exact ⟨nofun, fun h => absurd (.zero (n.isZero_iff.mp hzero)) h.1⟩
    · rw [if_neg hzero]
      refine ⟨fun h => ⟨?_, (Option.some.inj h).symm⟩, fun h => congrArg some h.2.symm⟩
      rintro (_ | _ | _ | h)
      exact hzero (n.isZero_iff.mpr h)
  | string s =>
    rw [defaultText?]
    by_cases hempty : s = ""
    · subst hempty
      exact ⟨nofun, fun h => absurd .text h.1⟩
    · rw [if_neg hempty]
      refine ⟨fun h => ⟨?_, (Option.some.inj h).symm⟩, fun h => congrArg some h.2.symm⟩
      rintro (_ | _ | _ | _)
      exact hempty rfl
  | array elements =>
    exact ⟨fun h => ⟨nofun, (Option.some.inj h).symm⟩, fun h => congrArg some h.2.symm⟩
  | object members =>
    exact ⟨fun h => ⟨nofun, (Option.some.inj h).symm⟩, fun h => congrArg some h.2.symm⟩

/-- No default value is written as the empty text. -/
theorem defaultText?_ne_empty {j : Json} {text : String} (h : defaultText? j = some text) :
    text ≠ "" := by
  obtain ⟨hgiven, rfl⟩ := defaultText?_eq_some_iff.mp h
  exact Json.plainText_ne_empty hgiven

/-! ## The group that has a say -/

/-- A group is the first one in the order of a layout that is defined and lists a field. -/
def Layout.FirstLists (l : Layout) (field name : String) (g : GroupLayout) : Prop :=
  ∃ before after, l.position = before ++ name :: after ∧ l.groups.get? name = some g ∧
    field ∈ g.position ∧
    ∀ earlier ∈ before, ∀ other, l.groups.get? earlier = some other → field ∉ other.position

namespace WidgetConfig

theorem groupOf?_eq (c : WidgetConfig) (field : String) :
    c.groupOf? field = (c.layout.position.find? fun name =>
      ((c.layout.groups.get? name).map fun g => (name, g)).any (lists field)).bind
        fun name => (c.layout.groups.get? name).map fun g => (name, g) :=
  List.find?_filterMap

/-- **The group of a field is the first one that lists it.** -/
theorem groupOf?_eq_some_iff {c : WidgetConfig} {field name : String} {g : GroupLayout} :
    c.groupOf? field = some (name, g) ↔ c.layout.FirstLists field name g := by
  rw [groupOf?_eq, Option.bind_eq_some_iff]
  constructor
  · rintro ⟨first, hfind, hgroup⟩
    obtain ⟨hlists, before, after, hposition, hbefore⟩ :=
      List.find?_eq_some_iff_append.mp hfind
    obtain ⟨layout, hlayout, hpair⟩ := Option.map_eq_some_iff.mp hgroup
    cases hpair
    refine ⟨before, after, hposition, hlayout, ?_, ?_⟩
    · rw [hlayout] at hlists
      exact of_decide_eq_true hlists
    · intro earlier hearlier other hother hfield
      have hnot := hbefore earlier hearlier
      rw [hother] at hnot
      exact absurd (decide_eq_true hfield) (by simpa [lists] using hnot)
  · rintro ⟨before, after, hposition, hlayout, hfield, hbefore⟩
    refine ⟨name, List.find?_eq_some_iff_append.mpr ⟨?_, before, after, hposition, ?_⟩, ?_⟩
    · rw [hlayout]
      exact decide_eq_true hfield
    · intro earlier hearlier
      cases hother : c.layout.groups.get? earlier with
      | none => rfl
      | some other =>
        have hnot := hbefore earlier hearlier other hother
        simp [lists, hnot]
    · rw [hlayout]
      rfl

/-- **What comes after a group that lists a field has no say about the field**, and neither have
groups that the order does not name: configurations that begin with the same groups, one of which
lists the field, agree on its group. -/
theorem groupOf?_congr {c d : WidgetConfig} {field : String} {known rest others : List String}
    (hc : c.layout.position = known ++ rest) (hd : d.layout.position = known ++ others)
    (hsame : ∀ name ∈ known, c.layout.groups.get? name = d.layout.groups.get? name)
    {listing : String} (hknown : listing ∈ known) {g : GroupLayout}
    (hlisting : c.layout.groups.get? listing = some g) (hfield : field ∈ g.position) :
    c.groupOf? field = d.groupOf? field := by
  have hfirst : (known.filterMap fun name => (c.layout.groups.get? name).map fun g => (name, g))
      = known.filterMap fun name => (d.layout.groups.get? name).map fun g => (name, g) :=
    List.filterMap_congr fun name hname => by rw [hsame name hname]
  have hfound : ((known.filterMap fun name =>
      (c.layout.groups.get? name).map fun g => (name, g)).find? (lists field)).isSome = true := by
    rw [List.find?_isSome]
    refine ⟨(listing, g), List.mem_filterMap.mpr ⟨listing, hknown, ?_⟩, decide_eq_true hfield⟩
    rw [hlisting]
    rfl
  rw [groupOf?, groupOf?, Layout.shown, Layout.shown, hc, hd, List.filterMap_append,
    List.filterMap_append, List.find?_append, List.find?_append, ← hfirst,
    Option.or_of_isSome hfound, Option.or_of_isSome hfound]

/-- The default value of a field is the one that its group's widget for it has. -/
theorem defaultOf?_eq_some_iff {c : WidgetConfig} {field value : String} :
    c.defaultOf? field = some value ↔
      ∃ name g w d, c.layout.FirstLists field name g ∧ g.fields.get? field = some w ∧
        w.properties.get? "default" = some d ∧ ¬ d.Vacant ∧ value = d.plainText := by
  rw [defaultOf?, Option.bind_eq_some_iff]
  constructor
  · rintro ⟨⟨name, g⟩, hgroup, htext⟩
    obtain ⟨d, hdefault, htext⟩ := Option.bind_eq_some_iff.mp htext
    obtain ⟨hgiven, hvalue⟩ := defaultText?_eq_some_iff.mp htext
    cases hwidget : g.fields.get? field with
    | none =>
      rw [GroupLayout.widgetOf, hwidget] at hdefault
      cases hdefault
    | some w =>
      rw [GroupLayout.widgetOf, hwidget] at hdefault
      exact ⟨name, g, w, d, groupOf?_eq_some_iff.mp hgroup, hwidget, hdefault, hgiven, hvalue⟩
  · rintro ⟨name, g, w, d, hgroup, hwidget, hdefault, hgiven, hvalue⟩
    refine ⟨(name, g), groupOf?_eq_some_iff.mpr hgroup, Option.bind_eq_some_iff.mpr ⟨d, ?_, ?_⟩⟩
    · rw [GroupLayout.widgetOf, hwidget]
      exact hdefault
    · exact defaultText?_eq_some_iff.mpr ⟨hgiven, hvalue⟩

end WidgetConfig

/-! ## What is written -/

namespace Form

/-- **The value that is written into a property, and when.**  A form's patch gives a property a
value exactly when the backend declares it and it is not the one that stores an explicit schema,
when it is there and empty, and when the first group that lists it has a widget for it with a
default value; the value is then the text of that.  Two configurations that store the schema alike
and begin with the same groups, one of which lists the property, give it the same value: what later
groups, and groups outside of the order, have for it does not matter. -/
theorem default_written_iff (n : Node) (config : WidgetConfig) (field : String) :
    (∀ value, (arrange n config).patch.set.get? field = some value ↔
      n.declarations.contains field = true ∧ config.explicitKey? ≠ some field ∧
        n.properties.get? field = some "" ∧
        ∃ name g w d, config.layout.FirstLists field name g ∧ g.fields.get? field = some w ∧
          w.properties.get? "default" = some d ∧ ¬ d.Vacant ∧ value = d.plainText) ∧
    ∀ (other : WidgetConfig) (known rest others : List String) (listing : String)
      (g : GroupLayout), other.explicitKey? = config.explicitKey? →
      config.layout.position = known ++ rest → other.layout.position = known ++ others →
      (∀ name ∈ known, config.layout.groups.get? name = other.layout.groups.get? name) →
      listing ∈ known → config.layout.groups.get? listing = some g → field ∈ g.position →
      (arrange n other).patch.set.get? field = (arrange n config).patch.set.get? field := by
  constructor
  · intro value
    rw [arrange_patch_get?, Option.ite_none_right_eq_some, WidgetConfig.defaultOf?_eq_some_iff]
    simp only [and_assoc]
  · intro other known rest others listing g hkey hposition hother hsame hknown hlisting hfield
    have hgroup := WidgetConfig.groupOf?_congr hposition hother hsame hknown hlisting hfield
    rw [arrange_patch_get?, arrange_patch_get?, hkey, WidgetConfig.defaultOf?,
      WidgetConfig.defaultOf?, hgroup]

/-- A node whose format is there and empty. -/
def formatNode : Node where
  id := ""
  name := "Table"
  type := "batchsink"
  label := none
  description := none
  properties := SortedMap.empty.insert "format" ""
  schema := none
  declarations := ⟨[("format", ⟨"format", "", false, none⟩)], by decide⟩
  implicit := false

/-- A configuration with two groups that list the format, after one that is not defined; the first
has the default value `csv`. -/
def formatConfig (second : Json) : WidgetConfig where
  layout := ⟨["missing", "general", "advanced"],
    (SortedMap.empty.insert "general" (listing (.string "csv"))).insert "advanced" (listing second)⟩
  schema := none
where
  listing (value : Json) : GroupLayout := ⟨"", ["format"], SortedMap.empty.insert "format"
    ⟨none, none, none, none, SortedMap.empty.insert "default" value, SortedMap.empty⟩⟩

theorem formatConfig_explicitKey? (second : Json) : (formatConfig second).explicitKey? = none := rfl

theorem formatConfig_general (second : Json) :
    (formatConfig second).layout.groups.get? "general"
      = some (formatConfig.listing (.string "csv")) :=
  (SortedMap.get?_insert_of_ne _ _ (by decide)).trans (SortedMap.get?_insert_self _ _ _)

theorem formatConfig_missing (second : Json) :
    (formatConfig second).layout.groups.get? "missing" = none :=
  (SortedMap.get?_insert_of_ne _ _ (by decide)).trans
    (SortedMap.get?_insert_of_ne _ _ (by decide))

/-- The format gets the default value of the first group, whatever the second one has. -/
theorem default_written_iff_format :
    (arrange formatNode (formatConfig (.string "text"))).patch.set.get? "format" = some "csv" ∧
      (arrange formatNode (formatConfig .null)).patch.set.get? "format" =
        (arrange formatNode (formatConfig (.string "text"))).patch.set.get? "format" := by
  obtain ⟨hwritten, hsame⟩ := default_written_iff formatNode (formatConfig (.string "text")) "format"
  constructor
  · refine (hwritten "csv").mpr ⟨rfl, nofun, by decide, "general",
      formatConfig.listing (.string "csv"), _, .string "csv", ?_, rfl, rfl,
      defaultText?_eq_some_iff.mp (by decide)⟩
    refine ⟨["missing"], ["advanced"], rfl, formatConfig_general _, List.mem_singleton_self _, ?_⟩
    intro earlier hearlier other hother
    rw [List.mem_singleton.mp hearlier, formatConfig_missing] at hother
    cases hother
  · have hkey := (formatConfig_explicitKey? .null).trans
      (formatConfig_explicitKey? (.string "text")).symm
    refine hsame (formatConfig .null) ["missing", "general"] ["advanced"] ["advanced"] "general"
      _ hkey rfl rfl ?_ (List.mem_cons_of_mem _ (List.mem_singleton_self _))
      (formatConfig_general _) (List.mem_singleton_self _)
    intro name hname
    simp only [List.mem_cons, List.not_mem_nil, or_false] at hname
    rcases hname with rfl | rfl
    · rw [formatConfig_missing, formatConfig_missing]
    · rw [formatConfig_general, formatConfig_general]

end Form

end PipelineEditor
