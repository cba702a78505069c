import Mathlib.Logic.Relation
import PipelineEditor.Proofs.Schema.Rewrite

/-!
# Spare rows

An editor shows the columns of a schema in its first rows and spare rows behind them.  How many
there are is counted on the columns that can be shown: the rows are filled up to fifteen, and from
fifteen columns on a single row is added.  A schema without columns begins with an unnamed one, so
that there is a type to start from.

Nothing is written for a blank row, and nothing for a column without a name.  Such rows may stand
anywhere between the others, and may be put in or taken out.  This is also all that may be done: a
row list is made from its named columns by putting in spare rows one after the other, so two row
lists with the same text can be turned into each other in such steps.

* `SchemaEditor.leading`, `SchemaEditor.blanks`, `SchemaEditor.rowsOf_eq` — **the columns that the
  rows begin with, and the number of blank rows behind them**;
* `EditorRow.Spare`, `AddsSpare` — the rows that nothing is written for; one more of them;
* `reflTransGen_addsSpare` — a row list is made from its named columns;
* `schemaText?_eq_iff_eqvGen` — **row lists are written alike exactly when they differ by spare
  rows**;
* `spare_rows_invisible` — the rows of an editor, and what is written of them.
-/

namespace PipelineEditor

/-! ## The rows of an editor -/

namespace SchemaEditor

variable (e : SchemaEditor) (cs : List Column)

/-- The columns that the rows begin with: those of the schema, or the first column if there are
none. -/
def leading : List Column := if cs = [] then [e.firstColumn] else cs

/-- The number of blank rows behind them: as many as are missing, and at least one. -/
def blanks : Nat := max 1 (leastRows - (e.leading cs).length)

theorem length_leading : (e.leading cs).length = max 1 cs.length := by
  unfold leading
  split
  next hnone => rw [hnone]; rfl
  next hsome =>
    have hpos : 0 < cs.length := List.length_pos_iff.mpr hsome
    omega

/-- **The rows of an editor are its leading columns and blank rows behind them.** -/
theorem rowsOf_eq :
    e.rowsOf cs = (e.leading cs).map .column ++ List.replicate (e.blanks cs) .blank := by
  have hleading : (if cs.isEmpty then [e.firstColumn] else cs) = e.leading cs := by
    simp only [leading, List.isEmpty_iff]
  have hlength := e.length_leading cs
  unfold rowsOf
  by_cases hfew : cs.length < leastRows
  · have hblanks : leastRows - (e.leading cs).length = e.blanks cs := by
      unfold blanks
      unfold leastRows at hfew ⊢
      omega
    rw [if_pos hfew, hleading]
    show (e.leading cs).map EditorRow.column
        ++ List.replicate (leastRows - (e.leading cs).length) EditorRow.blank = _
    rw [hblanks]
  · have hblanks : e.blanks cs = 1 := by
      unfold blanks
      unfold leastRows at hfew ⊢
      omega
    have hsome : cs ≠ [] := by
      rintro rfl
      exact hfew (by decide)
    rw [if_neg hfew, hblanks, leading, if_neg hsome]
    rfl

theorem length_rowsOf :
    (e.rowsOf cs).length = if cs.length < leastRows then leastRows else cs.length + 1 := by
  rw [rowsOf_eq, List.length_append, List.length_map, List.length_replicate, blanks,
    length_leading]
  split
  next hfew => unfold leastRows at hfew ⊢; omega
  next hmany => unfold leastRows at hmany ⊢; omega

/-- What an editor writes, unless a schema is implied, is what its columns alone are written as. -/
theorem build?_eq_columns {fields : Option (List StoredField)} {properties : SortedMap String}
    (hfree : e.suppressed properties = false) :
    e.build? fields properties = schemaText? ((columns (fields.getD [])).map .column) := by
  rw [build?, if_neg (Bool.eq_false_iff.mp hfree), schemaText?_eq_iff, namedColumns_rows,
    EditorRow.filterMap_column]

end SchemaEditor

/-! ## Spare rows -/

/-- A row that nothing is written for: blank, or a column without a name. -/
inductive EditorRow.Spare : EditorRow → Prop
  | blank : Spare .blank
  | unnamed {c : Column} (h : c.name = "") : Spare (.column c)

/-- The second row list has one spare row more than the first, at some position. -/
inductive AddsSpare : List EditorRow → List EditorRow → Prop
  | intro (before after : List EditorRow) {row : EditorRow} (h : row.Spare) :
    AddsSpare (before ++ after) (before ++ row :: after)

/-- The columns of a row list that are written. -/
def writtenColumns (rows : List EditorRow) : List Column :=
  namedColumns (rows.filterMap EditorRow.column?)

theorem writtenColumns_append (rows others : List EditorRow) :
    writtenColumns (rows ++ others) = writtenColumns rows ++ writtenColumns others := by
  rw [writtenColumns, List.filterMap_append, namedColumns, List.filter_append]
  rfl

theorem writtenColumns_cons_spare {row : EditorRow} (h : row.Spare) (rows : List EditorRow) :
    writtenColumns (row :: rows) = writtenColumns rows := by
  cases h with
  | blank => rfl
  | unnamed h => simp [writtenColumns, namedColumns, EditorRow.column?, h]

theorem writtenColumns_cons_named {c : Column} (h : c.name ≠ "") (rows : List EditorRow) :
    writtenColumns (.column c :: rows) = c :: writtenColumns rows := by
  simp [writtenColumns, namedColumns, EditorRow.column?, h]

/-- One more spare row leaves the columns that are written. -/
theorem AddsSpare.writtenColumns_eq {rows others : List EditorRow} (h : AddsSpare rows others) :
    writtenColumns rows = writtenColumns others := by
  obtain ⟨before, after, hspare⟩ := h
  rw [writtenColumns_append, writtenColumns_append, writtenColumns_cons_spare hspare]

/-- A spare row may just as well be added behind one more row. -/
theorem AddsSpare.cons {rows others : List EditorRow} (row : EditorRow)
    (h : AddsSpare rows others) : AddsSpare (row :: rows) (row :: others) := by
  obtain ⟨before, after, hspare⟩ := h
  exact .intro (row :: before) after hspare

/-- **A row list is made from its named columns by adding spare rows.** -/
theorem reflTransGen_addsSpare (rows : List EditorRow) :
    Relation.ReflTransGen AddsSpare ((writtenColumns rows).map .column) rows := by
  induction rows with
  | nil => exact .refl
  | cons row rest ih =>
    have hspare : row.Spare → Relation.ReflTransGen AddsSpare
        ((writtenColumns (row :: rest)).map .column) (row :: rest) := by
      intro h
      rw [writtenColumns_cons_spare h]
      exact ih.tail (.intro [] rest h)
    cases row with
    | blank => exact hspare .blank
    | column c =>
      by_cases hname : c.name = ""
      · exact hspare (.unnamed hname)
      · rw [writtenColumns_cons_named hname]
        exact ih.lift (.column c :: ·) fun _ _ h => h.cons (.column c)

/-- Row lists have the same named columns exactly when they differ by spare rows. -/
theorem eqvGen_addsSpare_iff (rows others : List EditorRow) :
    Relation.EqvGen AddsSpare rows others ↔ writtenColumns rows = writtenColumns others := by
  constructor
  · intro h
    induction h with
    | rel _ _ hstep => exact hstep.writtenColumns_eq
    | refl _ => rfl
    | symm _ _ _ ih => exact ih.symm
    | trans _ _ _ _ _ ihfirst ihsecond => exact ihfirst.trans ihsecond
  · intro h
    have hmade : ∀ rows, Relation.EqvGen AddsSpare ((writtenColumns rows).map .column) rows :=
      fun rows => Relation.EqvGen.reflTransGen_le_eqvGen _ _ _ (reflTransGen_addsSpare rows)
    refine .trans _ _ _ (.symm _ _ (hmade rows)) ?_
    rw [h]
    exact hmade others

/-- **Row lists are written alike exactly when they differ by spare rows.** -/
theorem schemaText?_eq_iff_eqvGen (rows others : List EditorRow) :
    schemaText? rows = schemaText? others ↔ Relation.EqvGen AddsSpare rows others :=
  (schemaText?_eq_iff rows others).trans (eqvGen_addsSpare_iff rows others).symm

/-- **The rows of an editor, and what is written of them.**  An editor has fifteen rows for fewer
columns than that, and one more than columns otherwise.  They begin with the columns in order, or
with an unnamed column of the default type if there are none; all that follow are blank, and there
is at least one of them.  Unless a schema is implied, what the editor writes is what the columns
alone are written as.  For any two row lists, the same is written of both exactly when one is made
from the other by putting in and taking out blank rows and columns without a name, one at a time and
at any position; and nothing is written exactly when no column has a name. -/
theorem spare_rows_invisible :
    (∀ (e : SchemaEditor) (fields : Option (List StoredField)),
      let cs := columns (fields.getD [])
      (e.rows fields).length = (if cs.length < 15 then 15 else cs.length + 1) ∧
      (∃ blanks > 0, e.rows fields =
        (if cs = [] then [⟨"", ColumnType.ofName e.defaultType, false⟩] else cs).map
          EditorRow.column ++ List.replicate blanks .blank) ∧
      ∀ properties, e.suppressed properties = false →
        e.build? fields properties = schemaText? (cs.map .column)) ∧
    (∀ rows others : List EditorRow,
      schemaText? rows = schemaText? others ↔ Relation.EqvGen AddsSpare rows others) ∧
    ∀ rows : List EditorRow,
      schemaText? rows = none ↔ ∀ c, EditorRow.column c ∈ rows → c.name = "" := by
  refine ⟨fun e fields => ⟨?_, ?_, fun properties hfree => e.build?_eq_columns hfree⟩,
    schemaText?_eq_iff_eqvGen, schemaText?_eq_none_iff_unnamed⟩
  · exact e.length_rowsOf _
  · exact ⟨_, Nat.le_max_left _ _, e.rowsOf_eq _⟩

/-- A number, a field whose type has no shape, and a field without a name. -/
def sparseFields : List StoredField :=
  [⟨"id", .string "int", false⟩, ⟨"bad", .null, false⟩, ⟨"", .string "long", true⟩]

/-- Two columns are shown in fifteen rows, and written as the one that has a name, wherever blank
rows are put. -/
theorem spare_rows_invisible_sparse :
    let e := SchemaEditor.of none Settings.standard
    let id : Column := ⟨"id", .scalar "int", false⟩
    e.suppressed SortedMap.empty = false ∧ (e.rows (some sparseFields)).length = 15 ∧
      e.build? (some sparseFields) SortedMap.empty = schemaText? [.blank, .column id] ∧
      schemaText? [.blank, .column id] ≠ none := by
  intro e id
  have hfree : e.suppressed SortedMap.empty = false := rfl
  have hcolumns : columns sparseFields = [id, ⟨"", .scalar "long", true⟩] := by decide
  obtain ⟨hrows, htexts, hnone⟩ := spare_rows_invisible
  obtain ⟨hlength, -, hbuild⟩ := hrows e (some sparseFields)
  have hunnamed : AddsSpare [.column id] [.column id, .column ⟨"", .scalar "long", true⟩] :=
    .intro [.column id] [] (.unnamed rfl)
  have hblank : AddsSpare [.column id] [.blank, .column id] := .intro [] [.column id] .blank
  refine ⟨hfree, ?_, ?_, ?_⟩
  · rw [hlength, Option.getD_some, hcolumns]
    rfl
  · rw [hbuild _ hfree, Option.getD_some, hcolumns]
    exact (htexts _ _).mpr (.trans _ _ _ (.symm _ _ (.rel _ _ hunnamed)) (.rel _ _ hblank))
  · intro h
    exact absurd ((hnone _).mp h id (by decide)) (by decide)

end PipelineEditor
