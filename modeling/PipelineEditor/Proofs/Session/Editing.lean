import PipelineEditor.Proofs.Schema.Problems
import PipelineEditor.Proofs.Session.Mark

/-!
# Editing the rows of a schema

A session decides twice whether a schema can be edited.  The editor is shown, or not, when a host
asks for it; edited rows are stored, or not, when they are handed in.  Both look at the mark that
the plugin fixes the schema and at the watched property, and each looks for itself.  They agree in
every state, before the first configuration as well as after any number of them: what an editor
that is shown hands in is stored as it is written; where the mark hides the editor nothing happens;
and where the watched property hides it no schema is left.  Rows without a named column are written
as no schema at all, and to hand them in is to clear the schema.

Whatever is stored is checked, and the check reads the stored text and not the rows.  Since the text
has a field for each named column, it finds a shared name exactly where two named columns of the
rows share theirs.

* `editorView?_eq_none_iff` — the two causes **that hide the editor**;
* `edited?_of_implied`, `edited?_of_not_implied` — what rows are written as in a state;
* `editSchema_eq_clearSchema` — rows without a named column;
* `edits_follow_editor` — **the editor that is shown, and what becomes of edited rows**;
* `shared_names_told` — **which names the check finds to be shared**.
-/

namespace PipelineEditor

namespace Session

/-! ## The editor -/

/-- The editor is hidden by the mark and by a watched property that implies the schema, and by
nothing else. -/
theorem editorView?_eq_none_iff (s : Session) :
    s.editorView? = none ↔ s.node.implicit = true ∨ s.schemaImplied = true := by
  rw [← Option.not_isSome_iff_eq_none, editorView?_isSome_iff]
  cases s.node.implicit <;> cases s.schemaImplied <;> decide

/-! ## Edited rows -/

theorem edited?_of_implied {s : Session} (h : s.schemaImplied = true) (rows : List EditorRow) :
    s.edited? rows = none :=
  if_pos h

theorem edited?_of_not_implied {s : Session} (h : s.schemaImplied = false)
    (rows : List EditorRow) : s.edited? rows = schemaText? rows :=
  if_neg (Bool.eq_false_iff.mp h)

/-- Rows that are written as nothing clear the schema. -/
theorem editSchema_eq_clearSchema {s : Session} {rows : List EditorRow}
    (hfree : s.node.implicit = false) (hnone : s.edited? rows = none) :
    s.editSchema rows = s.clearSchema := by
  have hedit : s.editSchema rows =
      ((s.storeSchema (s.edited? rows)).1,
        (s.storeSchema (s.edited? rows)).1.schemaEvents (s.storeSchema (s.edited? rows)).2) :=
    if_neg (Bool.eq_false_iff.mp hfree)
  rw [hedit, hnone]
  rfl

/-- The check that comes after edited rows is the one of the schema that they are written as, and
there is no other. -/
theorem Step.checks_edited {s s' : Session} {rows : List EditorRow} {events : List Event}
    (h : Step s (.editSchema rows) s' events) (hopen : s.closed = false)
    (hfree : s.node.implicit = false) (messages : List String) :
    (∃ e ∈ events, e.change = .schemaChecked messages) ↔
      messages = problemMessages (s.edited? rows) := by
  obtain ⟨rfl, rfl⟩ := h.edits hopen hfree
  constructor
  · rintro ⟨e, he, hchange⟩
    rcases mem_schemaEvents.mp he with ⟨-, rfl⟩ | rfl | rfl
    · cases hchange
    · cases hchange
    · exact (Change.schemaChecked.inj hchange).symm
  · rintro rfl
    exact ⟨_, mem_schemaEvents.mpr (.inr (.inr rfl)), rfl⟩

/-- **Edited rows are stored exactly where the editor is shown.**  In every state of an open
session: if the editor is shown, edited rows are stored as they are written.  If it is hidden by the
mark that the plugin fixes the schema, nothing happens and nothing is told.  If it is hidden and
there is no mark, the watched property implies the schema, and no schema is left.  And without the
mark, rows in which no column has a name do what clearing the schema does. -/
theorem edits_follow_editor (s : Session) (rows : List EditorRow) (hopen : s.closed = false) :
    (∀ view, s.editorView? = some view →
      (s.handle (.editSchema rows)).1.node.schema = schemaText? rows) ∧
    (s.editorView? = none → s.node.implicit = true → s.handle (.editSchema rows) = (s, [])) ∧
    (s.editorView? = none → s.node.implicit = false →
      s.schemaImplied = true ∧ (s.handle (.editSchema rows)).1.node.schema = none) ∧
    (s.node.implicit = false → (∀ c, EditorRow.column c ∈ rows → c.name = "") →
      s.handle (.editSchema rows) = s.handle .clearSchema) := by
  have hstep := step_handle s (.editSchema rows)
  refine ⟨?_, ?_, ?_, ?_⟩
  · intro view hview
    obtain ⟨hfree, himplied⟩ := (editorView?_isSome_iff s).mp (by rw [hview]; rfl)
    rw [(hstep.edits hopen hfree).1, edited?_of_not_implied himplied]
    rfl
  · intro _ hmarked
    obtain ⟨hsame, hsilent⟩ := hstep.edit_refused hmarked
    exact Prod.ext hsame hsilent
  · intro hhidden hfree
    have himplied : s.schemaImplied = true := by
      rcases (editorView?_eq_none_iff s).mp hhidden with hmarked | himplied
      · exact absurd (hmarked.symm.trans hfree) (by decide)
      · exact himplied
    rw [(hstep.edits hopen hfree).1, edited?_of_implied himplied]
    exact ⟨himplied, rfl⟩
  · intro hfree hunnamed
    have hnone : s.edited? rows = none := by
      unfold edited?
      rw [(schemaText?_eq_none_iff_unnamed rows).mpr hunnamed, ite_self]
    simp only [handle, editSchema_eq_clearSchema hfree hnone]

/-- A stream on which the editor is shown at first, then hidden by the format, and in the end hidden
by the mark: rows with a named column are stored, leave no schema, and are refused. -/
theorem edits_follow_editor_stream :
    let shown := (streamSession.run [.configLoaded streamConfig]).1
    let implied := (shown.run [.setProperty "format" "clf"]).1
    let marked := (implied.run [.configLoaded bodyConfig]).1
    let edit := Operation.editSchema sampleRows
    shown.closed = false ∧ shown.editorView?.isSome = true ∧
      (shown.handle edit).1.node.schema = schemaText? sampleRows ∧
      implied.closed = false ∧ implied.editorView? = none ∧
      (implied.handle edit).1.node.schema = none ∧
      marked.closed = false ∧ marked.editorView? = none ∧ marked.handle edit = (marked, []) ∧
      shown.handle (.editSchema [.blank, .column ⟨"", .scalar "int", true⟩])
        = shown.handle .clearSchema := by
  intro shown implied marked edit
  have hshown : shown.editorView?.isSome = true := rfl
  obtain ⟨view, hview⟩ := Option.isSome_iff_exists.mp hshown
  have himplied : implied.editorView? = none := by
    rw [editorView?_eq_none_iff]
    exact .inr (by decide)
  have hmarked : marked.editorView? = none := if_pos rfl
  refine ⟨rfl, hshown, (edits_follow_editor shown sampleRows rfl).1 view hview, rfl, himplied,
    ((edits_follow_editor implied sampleRows rfl).2.2.1 himplied rfl).2, rfl, hmarked,
    (edits_follow_editor marked sampleRows rfl).2.1 hmarked rfl,
    (edits_follow_editor shown _ rfl).2.2.2 rfl ?_⟩
  simp

/-! ## Shared names -/

/-- **The check finds exactly the shared names.**  Of a text it tells the one problem if the text
reads as a schema and two of its fields, at different places, have one name, and nothing otherwise.
Of the text that rows are written as it tells nothing exactly when their named columns have distinct
names.  This is what an open session tells after edited rows while the plugin does not fix the
schema and the watched property implies none: the check that comes is the one of these rows, and no
other comes. -/
theorem shared_names_told :
    (∀ text : String,
      ((∃ fields, storedFields? (some text) = some fields ∧ SharesName fields) →
        problemMessages (some text) = ["There are two or more fields with the same name."]) ∧
      ((¬ ∃ fields, storedFields? (some text) = some fields ∧ SharesName fields) →
        problemMessages (some text) = [])) ∧
    (∀ rows : List EditorRow, problemMessages (schemaText? rows) = [] ↔
      ((namedColumns (rows.filterMap EditorRow.column?)).map Column.name).Nodup) ∧
    ∀ (s : Session) (rows : List EditorRow), s.closed = false → s.node.implicit = false →
      s.schemaImplied = false → ∀ messages,
        ((∃ e ∈ (s.handle (.editSchema rows)).2, e.change = .schemaChecked messages) ↔
          messages = problemMessages (schemaText? rows)) := by
  refine ⟨fun text => ⟨?_, ?_⟩, problemMessages_schemaText?, ?_⟩
  · rintro ⟨fields, hread, hshared⟩
    exact problemMessages_of_sharesName hread hshared
  · intro hnone
    rw [problemMessages_eq_nil_iff]
    intro fields hread
    refine Decidable.not_not.mp fun hrepeated => hnone ⟨fields, hread, ?_⟩
    exact (sharesName_iff fields).mpr hrepeated
  · intro s rows hopen hfree himplied messages
    rw [(step_handle s (.editSchema rows)).checks_edited hopen hfree,
      edited?_of_not_implied himplied]

/-- Two columns with one name, and between them two without any. -/
def repeatedRows : List EditorRow :=
  [.column ⟨"id", .scalar "int", false⟩, .column ⟨"", .scalar "int", false⟩,
    .column ⟨"", .scalar "long", false⟩, .column ⟨"id", .scalar "string", true⟩]

/-- Handed in to a stream, they are told of; without the last one nothing is. -/
theorem shared_names_told_stream :
    let s := (streamSession.run [.configLoaded streamConfig]).1
    s.closed = false ∧ s.node.implicit = false ∧ s.schemaImplied = false ∧
      (∃ e ∈ (s.handle (.editSchema repeatedRows)).2,
        e.change = .schemaChecked ["There are two or more fields with the same name."]) ∧
      ∃ e ∈ (s.handle (.editSchema (repeatedRows.take 3))).2, e.change = .schemaChecked [] := by
  intro s
  obtain ⟨htext, hrows, hedit⟩ := shared_names_told
  refine ⟨rfl, rfl, rfl, (hedit s repeatedRows rfl rfl rfl _).mpr ?_,
    (hedit s (repeatedRows.take 3) rfl rfl rfl _).mpr ((hrows _).mpr (by decide)).symm⟩
  obtain ⟨text, hwritten⟩ : ∃ text, schemaText? repeatedRows = some text := ⟨_, rfl⟩
  rw [hwritten]
  refine ((htext text).1 ⟨_, storedFields?_schemaText? hwritten, ?_⟩).symm
  exact ⟨0, 1, _, _, by decide, rfl, rfl, rfl⟩

end Session

end PipelineEditor
