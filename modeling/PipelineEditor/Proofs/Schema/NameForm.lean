import PipelineEditor.Proofs.Schema.ReadBack
import PipelineEditor.Proofs.Wire.Messages
import PipelineEditor.Schema.Edge

/-!
# The form of a type's name

A name is looked at without the blanks around it.  If what is left is `map<`, two arguments with a
comma between them, and `>`, the name stands for a map type.  The first comma is the one that
counts, so that only the second argument may have commas of its own; angles may stand in both.  The
keys and the values are the arguments without the blanks around them, and so the blank with which a
map type is shown after its comma is lost when the name is read again.

Not every type is one that a name stands for, and two types may be shown under one name.  But
whatever the editor is given or shows has types that were made from names: those of JSON texts are
written as names, and the types of stored schemas are reduced to types that have one.

* `Text.Strips`, `Text.trim_eq_iff` — a text without the blanks around it, by its parts;
* `ColumnType.MapForm` — the form of a map type's name;
* `ColumnType.ofName_eq_map_iff`, `ColumnType.ofName_eq_scalar_iff` — **the types that a name
  stands for, by its form**;
* `ColumnType.nameable_iff`, `ColumnType.nameable_map_iff` — the types that names stand for;
* `ColumnType.nameable_of_read?`, `EditorRow.nameable_of_read?`, `Operation.nameable_of_read?` —
  what is read has types that names stand for;
* `type_names_stable` — **type names are stable**, and tell the types with names apart.
-/

namespace PipelineEditor

/-! ## Blanks around a text -/

namespace Text

/-- A text of blanks. -/
def Blanks (s : String) : Prop := ∀ c ∈ s.toList, isBlank c = true

/-- A text without a blank at either end. -/
structure Bare (s : String) : Prop where
  front : ∀ c ∈ s.toList.head?, isBlank c = false
  back : ∀ c ∈ s.toList.getLast?, isBlank c = false

/-- A text, and what is left of it without the blanks around it. -/
inductive Strips : String → String → Prop
  | around {front core back : String} (hfront : Blanks front) (hcore : Bare core)
      (hback : Blanks back) : Strips (front ++ core ++ back) core

theorem trimFront_append {blanks : List Char} (h : ∀ c ∈ blanks, isBlank c = true)
    (cs : List Char) : trimFront (blanks ++ cs) = trimFront cs :=
  List.dropWhile_append_of_pos h

theorem trimChars_append {blanks : List Char} (h : ∀ c ∈ blanks, isBlank c = true)
    (cs : List Char) : trimChars (cs ++ blanks) = trimChars cs := by
  have hback : ∀ c ∈ blanks.reverse, isBlank c = true := fun c hc => h c (List.mem_reverse.mp hc)
  have hnone : trimFront blanks = [] := List.dropWhile_eq_nil_iff.mpr h
  by_cases hcs : trimFront cs = []
  · -- all of it is blank
    have hall : trimFront (cs ++ blanks) = [] := by
      rw [trimFront_append (List.dropWhile_eq_nil_iff.mp hcs), hnone]
    rw [trimChars, trimChars, hall, hcs]
  · have hkept : trimFront (cs ++ blanks) = trimFront cs ++ blanks := by
      rw [trimFront, List.dropWhile_append, if_neg (by rwa [List.isEmpty_iff])]
      rfl
    rw [trimChars, hkept, List.reverse_append, trimFront_append hback, ← trimChars]

/-- Characters are what is left of them, with blanks around it. -/
theorem exists_around (cs : List Char) :
    ∃ front back : List Char, cs = front ++ trimChars cs ++ back ∧
      (∀ c ∈ front, isBlank c = true) ∧ ∀ c ∈ back, isBlank c = true := by
  refine ⟨cs.takeWhile isBlank, ((trimFront cs).reverse.takeWhile isBlank).reverse, ?_,
    fun c hc => List.mem_takeWhile_imp hc,
    fun c hc => List.mem_takeWhile_imp (List.mem_reverse.mp hc)⟩
  have hback : trimFront cs =
      trimChars cs ++ ((trimFront cs).reverse.takeWhile isBlank).reverse := by
    rw [← List.reverse_inj, List.reverse_append, List.reverse_reverse, trimChars,
      List.reverse_reverse]
    exact List.takeWhile_append_dropWhile.symm
  rw [List.append_assoc, ← hback]
  exact List.takeWhile_append_dropWhile.symm

theorem length_trimChars_le (cs : List Char) : (trimChars cs).length ≤ cs.length := by
  obtain ⟨front, back, hcs, -, -⟩ := exists_around cs
  have hlength := congrArg List.length hcs
  simp only [List.length_append] at hlength
  omega

/-- A text without a blank at either end is what trimming leaves alone. -/
theorem bare_iff {s : String} : Bare s ↔ trimChars s.toList = s.toList := by
  constructor
  · intro h
    exact trimChars_eq_self h.front h.back
  · intro h
    -- a blank at an end would be taken away, and what is left would be shorter
    refine ⟨fun c hc => Bool.eq_false_iff.mpr fun hblank => ?_,
      fun c hc => Bool.eq_false_iff.mpr fun hblank => ?_⟩
    · obtain ⟨rest, hrest⟩ := List.head?_eq_some_iff.mp hc
      rw [hrest, trimChars_cons_of_isBlank hblank] at h
      have hshort := length_trimChars_le rest
      rw [h, List.length_cons] at hshort
      omega
    · obtain ⟨rest, hrest⟩ := List.getLast?_eq_some_iff.mp hc
      have hblanks : ∀ d ∈ [c], isBlank d = true := fun d hd => List.mem_singleton.mp hd ▸ hblank
      rw [hrest, trimChars_append hblanks] at h
      have hshort := length_trimChars_le rest
      rw [h, List.length_append, List.length_singleton] at hshort
      omega

theorem bare_trim (s : String) : Bare (trim s) := by
  rw [bare_iff, trim, String.toList_ofList, trimChars_trimChars]

/-- **What trimming gives is what is left without the blanks around it**, and nothing else is. -/
theorem trim_eq_iff {s core : String} : trim s = core ↔ Strips s core := by
  constructor
  · rintro rfl
    obtain ⟨front, back, hs, hfront, hback⟩ := exists_around s.toList
    have hparts : s = String.ofList front ++ trim s ++ String.ofList back := by
      rw [← String.toList_inj]
      simpa [trim] using hs
    have hstrips : Strips (String.ofList front ++ trim s ++ String.ofList back) (trim s) :=
      .around (by simpa [Blanks] using hfront) (bare_trim s) (by simpa [Blanks] using hback)
    rwa [← hparts] at hstrips
  · rintro ⟨hfront, hcore, hback⟩
    next front back =>
    rw [trim, String.toList_append, String.toList_append, trimChars_append hback, trimChars,
      trimFront_append hfront, ← trimChars, bare_iff.mp hcore, String.ofList_toList]

end Text

namespace ColumnType

open Text

/-! ## The form of a name -/

/-- A name of the form of a map type, and the two arguments in it. -/
structure MapForm (name first second : String) : Prop where
  form : Strips name ("map<" ++ first ++ "," ++ second ++ ">")
  comma : ',' ∉ first.toList

/-- The arguments that are found in a name are those of its form. -/
theorem mapArguments?_toList_eq_some_iff {name first second : String} :
    mapArguments? name = some (first.toList, second.toList) ↔ MapForm name first second := by
  have hform : trimChars name.toList =
      "map<".toList ++ first.toList ++ ',' :: second.toList ++ ['>'] ↔
        Strips name ("map<" ++ first ++ "," ++ second ++ ">") := by
    rw [← trim_eq_iff, ← String.toList_inj, trim, String.toList_ofList]
    simp
  rw [mapArguments?_eq_some_iff, hform]
  exact ⟨fun h => ⟨h.1, h.2⟩, fun h => ⟨h.form, h.comma⟩⟩

theorem MapForm.ofName_eq {name first second : String} (h : MapForm name first second) :
    ofName name = .map (trim first) (trim second) := by
  rw [ofName, mapArguments?_toList_eq_some_iff.mpr h]
  rfl

/-- A name without the form of a map type stands for the scalar type of that name. -/
theorem ofName_eq_scalar {name : String} (h : ∀ first second, ¬ MapForm name first second) :
    ofName name = .scalar name := by
  cases hname : mapArguments? name with
  | none => rw [ofName, hname]
  | some arguments =>
    refine absurd (mapArguments?_toList_eq_some_iff.mp ?_)
      (h (String.ofList arguments.1) (String.ofList arguments.2))
    rw [hname, String.toList_ofList, String.toList_ofList]

/-- **A name stands for a map type exactly when it has the form of one**, and then for the one
between its arguments without the blanks around them. -/
theorem ofName_eq_map_iff {name keys values : String} :
    ofName name = .map keys values ↔
      ∃ first second, MapForm name first second ∧ Strips first keys ∧ Strips second values := by
  constructor
  · intro h
    by_cases hform : ∃ first second, MapForm name first second
    · obtain ⟨first, second, hform⟩ := hform
      obtain ⟨hkeys, hvalues⟩ := map.inj (hform.ofName_eq.symm.trans h)
      exact ⟨first, second, hform, trim_eq_iff.mp hkeys, trim_eq_iff.mp hvalues⟩
    · rw [ofName_eq_scalar fun first second hf => hform ⟨first, second, hf⟩] at h
      cases h
  · rintro ⟨first, second, hform, hkeys, hvalues⟩
    rw [hform.ofName_eq, trim_eq_iff.mpr hkeys, trim_eq_iff.mpr hvalues]

/-- **Any other name stands for the scalar type of that very name.** -/
theorem ofName_eq_scalar_iff {name text : String} :
    ofName name = .scalar text ↔ text = name ∧ ∀ first second, ¬ MapForm name first second := by
  constructor
  · intro h
    have hother : ∀ first second, ¬ MapForm name first second := by
      intro first second hform
      rw [hform.ofName_eq] at h
      cases h
    rw [ofName_eq_scalar hother] at h
    exact ⟨(scalar.inj h).symm, hother⟩
  · rintro ⟨rfl, hother⟩
    exact ofName_eq_scalar hother

/-! ## Types that names stand for -/

/-- A type that a name stands for is the one that its own name stands for. -/
theorem nameable_iff {t : ColumnType} : t.Nameable ↔ ofName t.name = t := by
  constructor
  · rintro ⟨name, rfl⟩
    exact ofName_name_ofName name
  · intro h
    exact ⟨t.name, h⟩

/-- **The map types that names stand for** have no comma in their keys, and no blanks around keys
and values. -/
theorem nameable_map_iff {keys values : String} :
    (map keys values).Nameable ↔ ',' ∉ keys.toList ∧ Bare keys ∧ Bare values := by
  constructor
  · rintro ⟨name, hname⟩
    obtain ⟨first, second, hform, hkeys, hvalues⟩ := ofName_eq_map_iff.mp hname
    have hcomma : ',' ∉ (trim first).toList := by
      rw [trim, String.toList_ofList]
      exact fun hmem => hform.comma (mem_of_mem_trimChars hmem)
    rw [← trim_eq_iff.mpr hkeys, ← trim_eq_iff.mpr hvalues]
    exact ⟨hcomma, bare_trim first, bare_trim second⟩
  · rintro ⟨hcomma, hkeys, hvalues⟩
    have hname : ofName (map (String.ofList keys.toList) (String.ofList values.toList)).name = _ :=
      ofName_name_map hcomma
    rw [bare_iff.mp hkeys, bare_iff.mp hvalues, String.ofList_toList, String.ofList_toList] at hname
    exact nameable_iff.mpr hname

/-- Two types that names stand for are told apart by their own names. -/
theorem Nameable.eq_of_name_eq {t u : ColumnType} (ht : t.Nameable) (hu : u.Nameable)
    (h : t.name = u.name) : t = u := by
  rw [← nameable_iff.mp ht, ← nameable_iff.mp hu, h]

theorem nameable_of_read? {s : Source} {t : ColumnType} (h : read? s = some t) : t.Nameable := by
  obtain ⟨name, -, rfl⟩ := Option.map_eq_some_iff.mp h
  exact nameable_ofName name

end ColumnType

/-! ## Where types come from -/

open Wire

theorem Column.nameable_of_read? {s : Source} {c : Column} (h : read? s = some c) :
    c.type.Nameable := by
  obtain ⟨r, -, h⟩ := Option.bind_eq_some_iff.mp h
  obtain ⟨name, -, h⟩ := Option.bind_eq_some_iff.mp h
  obtain ⟨type, htype, h⟩ := Option.bind_eq_some_iff.mp h
  obtain ⟨nullable, -, h⟩ := Option.bind_eq_some_iff.mp h
  cases h
  exact ColumnType.nameable_of_read? (readsBack_of_required? htype)

namespace EditorRow

/-- The column of a row that was read was read. -/
theorem exists_read_of_read? {s : Source} {c : Column} (h : read? s = some (column c)) :
    ∃ place : Source, read? place = some c := by
  obtain ⟨-, h⟩ := Option.ite_none_right_eq_some.mp h
  split at h
  next d hcolumn =>
    cases h
    exact ⟨s, hcolumn⟩
  next =>
    obtain ⟨r, -, h⟩ := Option.bind_eq_some_iff.mp h
    obtain ⟨empty, -, h⟩ := Option.bind_eq_some_iff.mp h
    cases empty <;> cases h

/-- The columns of rows that were read have types that names stand for. -/
theorem nameable_of_read? {s : Source} {rows : List EditorRow} (h : read? s = some rows) :
    ∀ c ∈ rows.filterMap column?, c.type.Nameable := by
  intro c hc
  obtain ⟨row, hrow, hcolumn⟩ := List.mem_filterMap.mp hc
  cases row with
  | blank => cases hcolumn
  | column d =>
    cases hcolumn
    cases s with
    | array elements =>
      obtain ⟨place, hplace⟩ := exists_read_of_readAll? h _ hrow
      obtain ⟨inner, hinner⟩ := exists_read_of_read? hplace
      exact Column.nameable_of_read? hinner
    | _ => cases h

end EditorRow

theorem EditorView.nameable_of_read? {s : Source} {v : EditorView} (h : read? s = some v) :
    ∀ c ∈ v.rows.filterMap EditorRow.column?, c.type.Nameable := by
  obtain ⟨r, -, h⟩ := Option.bind_eq_some_iff.mp h
  obtain ⟨rows, hrows, h⟩ := Option.bind_eq_some_iff.mp h
  obtain ⟨options, -, h⟩ := Option.bind_eq_some_iff.mp h
  obtain ⟨defaultType, -, h⟩ := Option.bind_eq_some_iff.mp h
  cases h
  exact EditorRow.nameable_of_read? (readsBack_of_required? hrows)

theorem Operation.nameable_of_read? {s : Source} {rows : List EditorRow}
    (h : read? s = some (editSchema rows)) :
    ∀ c ∈ rows.filterMap EditorRow.column?, c.type.Nameable := by
  -- the edit is read back, and it is read by reading its rows
  have hedit : ReadsBack (editSchema rows) := readsBack_of_read? h nofun
  have hrows : ((read? (write rows).toSource : Option (List EditorRow)).bind fun others =>
      some (editSchema others)) = some (editSchema rows) := hedit
  obtain ⟨others, hothers, heq⟩ := Option.bind_eq_some_iff.mp hrows
  cases heq
  exact EditorRow.nameable_of_read? hothers

/-- A connection carries columns whose types are types that names stand for. -/
theorem Node.nameable_of_edgeColumns? {n : Node} {implied : ImpliedSchemas} {cs : List Column}
    (h : n.edgeColumns? implied = some cs) : ∀ c ∈ cs, c.type.Nameable := by
  obtain ⟨fields, -, rfl⟩ := Option.map_eq_some_iff.mp h
  intro c hc
  obtain ⟨f, -, hf⟩ := List.mem_filterMap.mp hc
  exact StoredField.nameable_of_columnAs? hf

namespace ColumnType

/-- **Where a column type comes from**: the shape of a stored type is reduced to it, an editor or a
connection shows a column of it, or it was read, alone or in a column of rows, of what an editor is
given to show, or of an edit. -/
inductive Produced : ColumnType → Prop
  | reduced (shape : TypeShape) (nullable : Bool) : Produced (shape.reduce nullable).1
  | stored {fields : List StoredField} {c : Column} (hc : c ∈ columns fields) : Produced c.type
  | shown {e : SchemaEditor} {fields : Option (List StoredField)} {c : Column}
      (hc : c ∈ (e.rows fields).filterMap EditorRow.column?) : Produced c.type
  | carried {n : Node} {implied : ImpliedSchemas} {cs : List Column} {c : Column}
      (h : n.edgeColumns? implied = some cs) (hc : c ∈ cs) : Produced c.type
  | read {s : Source} {t : ColumnType} (h : read? s = some t) : Produced t
  | readColumn {s : Source} {c : Column} (h : read? s = some c) : Produced c.type
  | readRows {s : Source} {rows : List EditorRow} {c : Column} (h : read? s = some rows)
      (hc : c ∈ rows.filterMap EditorRow.column?) : Produced c.type
  | readView {s : Source} {v : EditorView} {c : Column} (h : read? s = some v)
      (hc : c ∈ v.rows.filterMap EditorRow.column?) : Produced c.type
  | readEdit {s : Source} {rows : List EditorRow} {c : Column}
      (h : read? s = some (Operation.editSchema rows))
      (hc : c ∈ rows.filterMap EditorRow.column?) : Produced c.type

/-- **The types that come from anywhere are the types that names stand for.** -/
theorem produced_iff {t : ColumnType} : t.Produced ↔ t.Nameable := by
  constructor
  · intro h
    cases h with
    | reduced shape nullable => exact shape.reduce_nameable nullable
    | stored hc => exact nameable_of_mem_columns hc
    | shown hc => exact SchemaEditor.nameable_of_mem_rows _ _ _ hc
    | carried h hc => exact Node.nameable_of_edgeColumns? h _ hc
    | read h => exact nameable_of_read? h
    | readColumn h => exact Column.nameable_of_read? h
    | readRows h hc => exact EditorRow.nameable_of_read? h _ hc
    | readView h hc => exact EditorView.nameable_of_read? h _ hc
    | readEdit h hc => exact Operation.nameable_of_read? h _ hc
  · rintro ⟨name, rfl⟩
    have hread : read? (Source.string name) = some (ofName name) := rfl
    exact .read hread

end ColumnType

/-! ## Stable names -/

open ColumnType Text

/-- **Type names are stable.**  The type that a name stands for has a name that stands for the same
type.  A name stands for a map type exactly when, without the blanks around it, it is `map<`, an
argument without a comma, a comma, another argument and `>`, and then for the one between these
arguments without the blanks around them; any other name stands for the scalar type of that very
name, blanks included.  So the map types that names stand for are those whose keys have no comma
and whose keys and values have no blank at their ends.  Types that names stand for are told apart
by their own names, and every type that a stored schema is reduced to, that an editor or a
connection shows or that is read from JSON is one of them. -/
theorem type_names_stable :
    (∀ name : String, ofName (ofName name).name = ofName name) ∧
    (∀ name keys values : String, ofName name = .map keys values ↔
      ∃ first second, MapForm name first second ∧ Strips first keys ∧ Strips second values) ∧
    (∀ name text : String, ofName name = .scalar text ↔
      text = name ∧ ∀ first second, ¬ MapForm name first second) ∧
    (∀ keys values : String, (ColumnType.map keys values).Nameable ↔
      ',' ∉ keys.toList ∧ Bare keys ∧ Bare values) ∧
    (∀ t u : ColumnType, t.Nameable → u.Nameable → t.name = u.name → t = u) ∧
    ∀ t : ColumnType, t.Produced ↔ t.Nameable := by
  refine ⟨ofName_name_ofName, ?_, ?_, ?_, ?_, ?_⟩
  · intro name keys values
    exact ofName_eq_map_iff
  · intro name text
    exact ofName_eq_scalar_iff
  · intro keys values
    exact nameable_map_iff
  · intro t u ht hu hname
    exact ht.eq_of_name_eq hu hname
  · intro t
    exact produced_iff

/-- A name with blanks of several kinds, a second comma and a second angle. -/
def spacedName : String := "\u2003map< a\t,b, c>>\u00a0"

/-- An edit with a column of that type. -/
def spacedEdit : Source :=
  .object [(.text "type", .string "editSchema"), (.text "payload", .object [(.text "rows",
    .array [.array [.string "id", .string spacedName], .object [(.text "empty", .bool true)]])])]

/-- The name stands for the map type of its parts, which another name is shown for; the edit
brings this type, and no other type that a name stands for is shown so. -/
theorem type_names_stable_spaced :
    ofName spacedName = .map "a" "b, c>" ∧ (ofName spacedName).name = "map<a, b, c>>" ∧
      ofName "map<a, b, c>>" = ofName spacedName ∧
      ofName " map<a> " = .scalar " map<a> " ∧
      read? spacedEdit =
        some (Operation.editSchema [.column ⟨"id", .map "a" "b, c>", false⟩, .blank]) ∧
      (ColumnType.map "a" "b, c>").Nameable ∧
      ∀ u : ColumnType, u.Nameable → u.name = "map<a, b, c>>" → u = .map "a" "b, c>" := by
  obtain ⟨hstable, hmap, -, -, hname, hproduced⟩ := type_names_stable
  have hform : MapForm spacedName " a\t" "b, c>" := ⟨trim_eq_iff.mp (by decide), by decide⟩
  have hspaced : ofName spacedName = .map "a" "b, c>" :=
    (hmap _ _ _).mpr ⟨_, _, hform, trim_eq_iff.mp (by decide), trim_eq_iff.mp (by decide)⟩
  have hread : read? spacedEdit =
      some (Operation.editSchema [.column ⟨"id", .map "a" "b, c>", false⟩, .blank]) := rfl
  have hedit : (ColumnType.map "a" "b, c>").Nameable :=
    (hproduced _).mp (.readEdit hread List.mem_cons_self)
  have hshown : (ofName spacedName).name = "map<a, b, c>>" := by
    rw [hspaced]
    decide
  refine ⟨hspaced, hshown, hshown ▸ hstable spacedName, by decide, hread, hedit, ?_⟩
  intro u hu hsame
  exact hname _ _ hu hedit (hsame.trans (by decide))

/-- A scalar type that no name stands for may be shown under the name of a map type. -/
example : (ColumnType.scalar "map<a, b>").name = (ColumnType.map "a" "b").name := by decide

end PipelineEditor
