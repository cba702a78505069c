import PipelineEditor.Proofs.Session.Effective
import PipelineEditor.Proofs.Session.Implicit

/-!
# The mark that the plugin fixes the schema

A node is marked when a configuration comes in which the plugin fixes the schema, and the mark says
from then on that the schema is not to be edited.  No operation takes it back.  So it does not
follow the configuration that a session holds: it tells whether any configuration so far has fixed
the schema, or whether the node came with the mark.  On a node that is marked, a configuration that
stores the schema in a property, or says nothing about it, is held, but its editor is not shown and
edited rows are refused as before.

* `Operation.config?`, `taken` — the configurations that a session takes in a run;
* `Step.takes`, `run_takes` — **the configuration that is held, and the mark**, after one operation
  and after a run;
* `Step.edit_refused`, `Step.edits`, `editorView?_isSome_iff` — what the mark decides;
* `mark_stays` — **the mark after a run, and when it agrees with the configuration that is held**.
-/

namespace PipelineEditor

/-- The configuration that an operation brings. -/
def Operation.config? : Operation → Option WidgetConfig
  | configLoaded config => some config
  | _ => none

/-- Whether the plugin fixes the schema in a configuration. -/
def WidgetConfig.fixesSchema (c : WidgetConfig) : Bool := c.implicitFields?.isSome

namespace Session

/-- The configurations that come before the session is closed, in order. -/
def taken : List Operation → List WidgetConfig
  | [] => []
  | op :: rest => if op.closes then [] else op.config?.toList ++ taken rest

/-- The node comes with the mark, or a configuration that a run takes fixes the schema. -/
def Marks (node : Node) (ops : List Operation) : Prop :=
  node.implicit = true ∨ ∃ config ∈ taken ops, config.fixesSchema = true

/-! ## One operation -/

/-- **What one operation does to the held configuration and to the mark.** -/
theorem Step.takes {s s' : Session} {op : Operation} {events : List Event}
    (h : Step s op s' events) (hopen : s.closed = false)
    (hdeclares : s.node.declaresNothing = false) :
    s'.config = op.config?.or s.config ∧
      s'.node.implicit = (s.node.implicit || op.config?.any WidgetConfig.fixesSchema) := by
  cases h with
  | ignored hclosed => exact absurd (hclosed.symm.trans hopen) (by decide)
  | kept _ hnothing => exact absurd (hnothing.symm.trans hdeclares) (by decide)
  | loaded _ _ => exact ⟨rfl, rfl⟩
  | _ => exact ⟨rfl, (Bool.or_false _).symm⟩

/-- A marked node has its edited rows refused. -/
theorem Step.edit_refused {s s' : Session} {rows : List EditorRow} {events : List Event}
    (h : Step s (.editSchema rows) s' events) (hmarked : s.node.implicit = true) :
    s' = s ∧ events = [] := by
  cases h with
  | ignored hclosed => exact ⟨rfl, rfl⟩
  | editRefused hopen hfixed => exact ⟨rfl, rfl⟩
  | edited hopen hfree => exact absurd (hmarked.symm.trans hfree) (by decide)

/-- **What edited rows do** to a session that is open and not marked: the schema that they are
written as is stored and told. -/
theorem Step.edits {s s' : Session} {rows : List EditorRow} {events : List Event}
    (h : Step s (.editSchema rows) s' events) (hopen : s.closed = false)
    (hfree : s.node.implicit = false) :
    s' = s.withSchema (s.edited? rows) ∧ events = s'.schemaEvents (s.differs s') := by
  cases h with
  | ignored hclosed => exact absurd (hclosed.symm.trans hopen) (by decide)
  | editRefused _ hfixed => exact absurd (hfixed.symm.trans hfree) (by decide)
  | edited _ _ => exact ⟨rfl, rfl⟩

/-- So the schema that is left is told to the host. -/
theorem Step.edit_taken {s s' : Session} {rows : List EditorRow} {events : List Event}
    (h : Step s (.editSchema rows) s' events) (hopen : s.closed = false)
    (hfree : s.node.implicit = false) :
    s' = s.withSchema (s.edited? rows) ∧ s'.event (.schemaChanged s'.node.schema) ∈ events := by
  obtain ⟨rfl, rfl⟩ := h.edits hopen hfree
  exact ⟨rfl, mem_schemaEvents.mpr (.inr (.inl rfl))⟩

/-- The editor is shown unless the node is marked or the watched property implies the schema. -/
theorem editorView?_isSome_iff (s : Session) :
    s.editorView?.isSome = true ↔ s.node.implicit = false ∧ s.schemaImplied = false := by
  unfold editorView? SchemaEditor.view?
  cases s.node.implicit with
  | true => simp
  | false =>
    show (if s.schemaImplied = true then none else _).isSome = true ↔ _
    cases s.schemaImplied <;> simp

/-! ## Runs -/

/-- **What a run does to the held configuration and to the mark**: the last configuration that it
takes is held, and each one that fixes the schema sets the mark. -/
theorem run_takes (s : Session) (ops : List Operation) (hopen : s.closed = false)
    (hdeclares : s.node.declaresNothing = false) :
    (s.run ops).1.config = (taken ops).getLast?.or s.config ∧
      (s.run ops).1.node.implicit =
        (s.node.implicit || (taken ops).any WidgetConfig.fixesSchema) := by
  induction ops generalizing s with
  | nil => exact ⟨rfl, (Bool.or_false _).symm⟩
  | cons op rest ih =>
    have hstep := step_handle s op
    obtain ⟨hconfig, hmark⟩ := hstep.takes hopen hdeclares
    rw [run_cons, taken]
    cases hcloses : op.closes with
    | true =>
      have hnone : op.config? = none := by
        cases op with
        | close => rfl
        | _ => cases hcloses
      rw [run_of_closed (hstep.closed_of_closes hcloses), hconfig, hmark, hnone]
      exact ⟨rfl, rfl⟩
    | false =>
      have hother : op ≠ .close := by
        rintro rfl
        cases hcloses
      have hstill : (s.handle op).1.node.declaresNothing = false := by
        rw [Node.declaresNothing, hstep.declarations]
        exact hdeclares
      obtain ⟨hrestConfig, hrestMark⟩ := ih (s.handle op).1 ((hstep.closed_eq hother).trans hopen)
        hstill
      rw [hrestConfig, hrestMark, hconfig, hmark]
      cases op.config? with
      | none => exact ⟨rfl, congrArg (· || _) (Bool.or_false _)⟩
      | some config =>
        refine ⟨?_, Bool.or_assoc _ _ _⟩
        show _ = ((config :: taken rest).getLast?).or s.config
        rw [List.getLast?_cons]
        cases (taken rest).getLast? <;> rfl

/-- A node is marked after a run that marks it. -/
theorem run_marked_iff (id : SessionId) (node : Node) (settings : Settings) (ops : List Operation)
    (hdeclares : node.declaresNothing = false) :
    ((new id node settings).run ops).1.node.implicit = true ↔ Marks node ops := by
  rw [(run_takes (new id node settings) ops rfl hdeclares).2, Bool.or_eq_true, List.any_eq_true]
  rfl

/-- **The mark tells what any configuration so far has said, and not what the held one says.**  Let
a session on a node with declared properties take configurations, the last of which it then holds.
The node is marked exactly when it came with the mark or one of these configurations fixes the
schema.  So the mark agrees with the held configuration exactly when that one fixes the schema or
nothing has marked the node.  While the watched property implies no schema, the editor is shown
exactly when nothing has marked the node.  Edited rows are then written and told; on a marked node
they are refused, whatever the held configuration says. -/
theorem mark_stays (id : SessionId) (node : Node) (settings : Settings) (ops : List Operation)
    (config : WidgetConfig) (last : Session)
    (hdeclares : node.declaresNothing = false)
    (hlast : (taken ops).getLast? = some config)
    (hrun : ((new id node settings).run ops).1 = last) :
    last.config = some config ∧
    (last.node.implicit = true ↔ Marks node ops) ∧
    ((last.node.implicit = true ↔ config.fixesSchema = true) ↔
      (config.fixesSchema = true ∨ ¬ Marks node ops)) ∧
    (last.schemaImplied = false → (last.editorView?.isSome = true ↔ ¬ Marks node ops)) ∧
    (last.closed = false → ∀ rows,
      (Marks node ops → last.handle (.editSchema rows) = (last, [])) ∧
      (¬ Marks node ops → last.schemaImplied = false →
        (last.handle (.editSchema rows)).1.node.schema = schemaText? rows ∧
          last.event (.schemaChanged (schemaText? rows)) ∈ (last.handle (.editSchema rows)).2)) := by
  have hmark : last.node.implicit = true ↔ Marks node ops := by
    rw [← hrun]
    exact run_marked_iff id node settings ops hdeclares
  refine ⟨?_, hmark, ?_, ?_, ?_⟩
  · rw [← hrun, (run_takes (new id node settings) ops rfl hdeclares).1, hlast]
    rfl
  · have hheld : config.fixesSchema = true → Marks node ops := fun hfixes =>
      .inr ⟨config, List.mem_of_getLast? hlast, hfixes⟩
    rw [hmark]
    constructor
    · intro hagree
      by_cases hmarks : Marks node ops
      · exact .inl (hagree.mp hmarks)
      · exact .inr hmarks
    · rintro (hfixes | hfree)
      · exact iff_of_true (hheld hfixes) hfixes
      · exact iff_of_false hfree fun hfixes => hfree (hheld hfixes)
  · intro himplied
    rw [editorView?_isSome_iff, ← hmark, Bool.not_eq_true]
    exact and_iff_left himplied
  · intro hopen rows
    have hstep := step_handle last (.editSchema rows)
    constructor
    · intro hmarks
      obtain ⟨hsame, hsilent⟩ := hstep.edit_refused (hmark.mpr hmarks)
      exact Prod.ext hsame hsilent
    · intro hfree himplied
      obtain ⟨hwritten, htold⟩ := hstep.edit_taken hopen
        (Bool.eq_false_iff.mpr fun h => hfree (hmark.mp h))
      have hedited : last.edited? rows = schemaText? rows := if_neg (Bool.eq_false_iff.mp himplied)
      rw [hwritten, hedited] at htold
      rw [hwritten, hedited]
      exact ⟨rfl, htold⟩

/-- A stream whose plugin fixes the schema in a first configuration, and stores it in a second one
that comes after the schema was cleared: the second one is held, but no editor is shown and edited
rows are refused. -/
theorem mark_stays_stream :
    let ops := [.configLoaded bodyConfig, .clearSchema, .configLoaded streamConfig]
    let last := (streamSession.run ops).1
    last.config = some streamConfig ∧ streamConfig.fixesSchema = false ∧
      last.node.implicit = true ∧ last.schemaImplied = false ∧ last.editorView? = none ∧
      last.handle (.editSchema [.blank]) = (last, []) := by
  intro ops last
  have h := mark_stays _ streamNode Settings.standard ops streamConfig last rfl rfl rfl
  have hmarks : Marks streamNode ops := .inr ⟨bodyConfig, List.mem_cons_self, rfl⟩
  have himplied : last.schemaImplied = false := by decide
  have hhidden : ¬ last.editorView?.isSome = true := fun hshown =>
    (h.2.2.2.1 himplied).mp hshown hmarks
  exact ⟨h.1, rfl, h.2.1.mpr hmarks, himplied, Option.not_isSome_iff_eq_none.mp hhidden,
    (h.2.2.2.2 rfl [.blank]).1 hmarks⟩

/-- The mark is still there when the held configuration does not fix the schema any more. -/
theorem mark_outlives_configuration :
    ¬ ∀ (id : SessionId) (node : Node) (settings : Settings) (ops : List Operation)
      (config : WidgetConfig) (last : Session), node.declaresNothing = false →
      (taken ops).getLast? = some config → ((new id node settings).run ops).1 = last →
      (last.node.implicit = true ↔ config.fixesSchema = true) := by
  intro h
  have hagree := h streamSession.id streamNode Settings.standard
    [.configLoaded bodyConfig, .clearSchema, .configLoaded streamConfig] streamConfig _ rfl rfl rfl
  exact absurd (hagree.mp rfl) (by decide)

end Session

end PipelineEditor
