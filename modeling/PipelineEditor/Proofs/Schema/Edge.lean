import Mathlib.Data.List.Forall2
import PipelineEditor.Proofs.Schema.ReadBack
import PipelineEditor.Proofs.Schema.TypePath
import PipelineEditor.Schema.Edge

/-!
# Connections and the editor show the same columns

The editor and a connection both read the stored schema of a node, each in a pass of its own.
The passes leave out the same fields, those whose types have no shape, and for every other field
they find the same name and the same type.  They may differ in the nullable flag: the editor
starts from the flag of the field, a connection from false.  So the flag on a connection says
whether an array occurs on the path through the type, and the flag in the editor is that or the
field's own.  A schema that was written carries no flags beside the types, and there the two
agree altogether.

* `StoredField.Shown` — the two columns of one field;
* `StoredField.shown_of_columnAs?` — the two readings of a field give such columns;
* `readable_columns` — **every column comes from the readable field at its place**;
* `edge_agrees_with_editor` — **the columns of a connection and of the editor, place by place**.
-/

namespace PipelineEditor

/-! ## One field -/

namespace StoredField

/-- Whether the type of a field has a shape. -/
def readable (f : StoredField) : Bool := f.column?.isSome

/-- The columns of one field, in the editor and on a connection. -/
structure Shown (f : StoredField) (editor edge : Column) : Prop where
  name : editor.name = f.name
  sameName : edge.name = editor.name
  sameType : edge.type = editor.type
  edgeNullable : edge.nullable = true ↔ f.type.MeetsArray
  editorNullable : editor.nullable = (edge.nullable || f.nullable)

/-- The column of a field under a flag: its type has a shape, which is reduced under the flag. -/
theorem exists_shape_of_columnAs? {f : StoredField} {nullable : Bool} {c : Column}
    (h : f.columnAs? nullable = some c) : ∃ shape, TypeShape.ofJson f.type = .ok shape ∧
      c = ⟨f.name, (shape.reduce nullable).1, (shape.reduce nullable).2⟩ := by
  unfold columnAs? at h
  split at h
  next shape hshape => exact ⟨shape, hshape, (Option.some.inj h).symm⟩
  next => cases h

/-- A field has a column under one flag exactly when it has one under another. -/
theorem isSome_columnAs? (f : StoredField) (nullable : Bool) :
    (f.columnAs? nullable).isSome = f.readable := by
  unfold readable column? columnAs?
  split <;> rfl

/-- **The two readings of a field** give columns that differ in the flag at most. -/
theorem shown_of_columnAs? {f : StoredField} {editor edge : Column}
    (heditor : f.column? = some editor) (hedge : f.columnAs? false = some edge) :
    f.Shown editor edge := by
  obtain ⟨shape, hshape, rfl⟩ := exists_shape_of_columnAs? heditor
  obtain ⟨other, hother, rfl⟩ := exists_shape_of_columnAs? hedge
  have hsame : other = shape := Except.ok.inj (hother.symm.trans hshape)
  subst hsame
  have hflag := (TypeShape.ofJson_eq_ok_iff.mp hshape).reduce_nullable_iff
  refine ⟨rfl, rfl, other.reduce_type false f.nullable, ?_, ?_⟩
  · simpa using hflag false
  · rw [Bool.eq_iff_iff, Bool.or_eq_true, hflag f.nullable, hflag false]
    simp [or_comm]

end StoredField

/-! ## All fields -/

/-- **Every column comes from the readable field at its place**, whatever the flags are that the
fields are read with. -/
theorem readable_columns (nullable : StoredField → Bool) (fields : List StoredField) :
    List.Forall₂ (fun f c => f.columnAs? (nullable f) = some c)
      (fields.filter StoredField.readable)
      (fields.filterMap fun f => f.columnAs? (nullable f)) := by
  induction fields with
  | nil => exact .nil
  | cons f rest ih =>
    have hreadable := f.isSome_columnAs? (nullable f)
    rw [List.filterMap_cons]
    cases hcolumn : f.columnAs? (nullable f) with
    | none =>
      rw [hcolumn] at hreadable
      rw [List.filter_cons_of_neg (by rw [← hreadable]; decide)]
      exact ih
    | some c =>
      rw [hcolumn] at hreadable
      rw [List.filter_cons_of_pos hreadable.symm]
      exact .cons hcolumn ih

/-- The readable field at the place of a column. -/
theorem exists_readable (nullable : StoredField → Bool) {fields : List StoredField} {i : Nat}
    {c : Column} (h : (fields.filterMap fun f => f.columnAs? (nullable f))[i]? = some c) :
    ∃ f, (fields.filter StoredField.readable)[i]? = some f ∧
      f.columnAs? (nullable f) = some c := by
  have hcolumns := readable_columns nullable fields
  obtain ⟨hi, rfl⟩ := List.getElem?_eq_some_iff.mp h
  have hfield : i < (fields.filter StoredField.readable).length := hcolumns.length_eq ▸ hi
  exact ⟨_, List.getElem?_eq_getElem hfield, hcolumns.get hfield hi⟩

/-- A connection from a node that is no stream carries what the node stores. -/
theorem Node.edgeColumns?_of_ne {n : Node} (hname : n.name ≠ "Stream") (implied : ImpliedSchemas) :
    n.edgeColumns? implied =
      (storedFields? n.schema).map fun fields => fields.filterMap (·.columnAs? false) := by
  have hstream : n.isStream = false := beq_eq_false_iff_ne.mpr hname
  rw [edgeColumns?, edgeFields?, hstream]
  rfl

/-- The fields of a written schema have no flags of their own, so a connection reads them as the
editor does. -/
theorem filterMap_columnAs?_ofColumn (cs : List Column) :
    (cs.map StoredField.ofColumn).filterMap (·.columnAs? false) =
      columns (cs.map StoredField.ofColumn) := by
  rw [columns, List.filterMap_map, List.filterMap_map]
  rfl

/-! ## Connections and the editor -/

/-- **A connection and the editor show the same columns of a node that is no stream.**  There are
columns on the connection exactly when the stored schema can be read.  Then there are as many as
in the editor, one for every field whose type has a shape; at each place they have the same name
and the same type; the flag on the connection says whether an array occurs on the path through
the type of the field, and the flag in the editor is this one or the field's own.  When the
stored schema was written by the editor, the columns are the same. -/
theorem edge_agrees_with_editor {n : Node} (hname : n.name ≠ "Stream") (implied : ImpliedSchemas) :
    ((n.edgeColumns? implied).isSome ↔ (storedFields? n.schema).isSome) ∧
    (∀ fields edge, storedFields? n.schema = some fields → n.edgeColumns? implied = some edge →
      edge.length = (columns fields).length ∧
      edge.length = (fields.filter StoredField.readable).length ∧
      ∀ (i : Nat) (editorColumn edgeColumn : Column), (columns fields)[i]? = some editorColumn →
        edge[i]? = some edgeColumn →
        ∃ f, (fields.filter StoredField.readable)[i]? = some f ∧
          f.Shown editorColumn edgeColumn) ∧
    ∀ rows, n.schema = schemaText? rows →
      n.edgeColumns? implied = (storedFields? n.schema).map columns := by
  rw [Node.edgeColumns?_of_ne hname]
  refine ⟨by rw [Option.isSome_map], ?_, ?_⟩
  · intro fields edge hfields hedge
    rw [hfields, Option.map_some] at hedge
    obtain rfl := Option.some.inj hedge
    have hedgeLength := (readable_columns (fun _ => false) fields).length_eq
    have heditorLength := (readable_columns StoredField.nullable fields).length_eq
    refine ⟨hedgeLength.symm.trans heditorLength, hedgeLength.symm, ?_⟩
    intro i editorColumn edgeColumn heditor hedge
    obtain ⟨f, hf, hcolumn⟩ := exists_readable StoredField.nullable heditor
    obtain ⟨g, hg, hedgeColumn⟩ := exists_readable (fun _ => false) hedge
    have hsame : g = f := Option.some.inj (hg.symm.trans hf)
    exact ⟨f, hf, StoredField.shown_of_columnAs? hcolumn (hsame ▸ hedgeColumn)⟩
  · intro rows hrows
    cases htext : schemaText? rows with
    | none => rw [hrows, htext]; rfl
    | some text =>
      rw [hrows, htext, storedFields?_schemaText? htext, Option.map_some, Option.map_some,
        filterMap_columnAs?_ofColumn]

/-- A table whose schema has a column behind two nested types, one with a flag of its own, and a
field without a type. -/
def flaggedTable : Node where
  id := "Table-1"
  name := "Table"
  type := "batchsource"
  label := none
  description := none
  properties := SortedMap.empty
  schema := some ("\x7b\"fields\": [\x7b\"name\": \"a\", \"type\": \x7b\"items\": [\"int\"]\x7d\x7d, "
    ++ "\x7b\"name\": \"b\"\x7d, \x7b\"name\": \"c\", \"type\": \"long\", \"nullable\": true\x7d]\x7d")
  declarations := OrderedMap.empty
  implicit := false

/-- The field without a type is left out on both sides; the array raises the flag of the first
column on both sides, and the flag of the last column counts in the editor only. -/
theorem edge_agrees_with_editor_flagged :
    flaggedTable.name ≠ "Stream" ∧
      ∃ fields edge, storedFields? flaggedTable.schema = some fields ∧
        flaggedTable.edgeColumns? ImpliedSchemas.standard = some edge ∧
        columns fields = [⟨"a", .scalar "int", true⟩, ⟨"c", .scalar "long", true⟩] ∧
        edge = [⟨"a", .scalar "int", true⟩, ⟨"c", .scalar "long", false⟩] ∧
        edge.length = (columns fields).length ∧
        ∀ (i : Nat) (editorColumn edgeColumn : Column), (columns fields)[i]? = some editorColumn →
          edge[i]? = some edgeColumn → edgeColumn.type = editorColumn.type := by
  have hname : flaggedTable.name ≠ "Stream" := by decide
  obtain ⟨hread, hplaces, -⟩ := edge_agrees_with_editor hname ImpliedSchemas.standard
  have hcolumns : (storedFields? flaggedTable.schema).map columns =
      some [⟨"a", .scalar "int", true⟩, ⟨"c", .scalar "long", true⟩] := by decide +kernel
  have hedge : flaggedTable.edgeColumns? ImpliedSchemas.standard =
      some [⟨"a", .scalar "int", true⟩, ⟨"c", .scalar "long", false⟩] := by decide +kernel
  obtain ⟨fields, hfields, hshown⟩ := Option.map_eq_some_iff.mp hcolumns
  obtain ⟨hlength, -, hsame⟩ := hplaces fields _ hfields hedge
  refine ⟨hname, fields, _, hfields, hedge, hshown, rfl, hlength, ?_⟩
  intro i editorColumn edgeColumn heditor hedge
  obtain ⟨f, -, hf⟩ := hsame i editorColumn edgeColumn heditor hedge
  exact hf.sameType

end PipelineEditor
