import PipelineEditor.Proofs.Session.Step

/-!
# Operations without effect

Two kinds of operations leave no trace in a session.  The message that there is no configuration
is answered with the plain groups and changes nothing, and so does everything that comes after the
session was closed, which is not even answered.  Whoever keeps a record of a session may therefore
leave both out: the shorter run ends in the same state, and what is left is answered as before.
The two runs go side by side.  They are in the same state before every operation that both have,
because an operation that only one of them has does not move it.

* `effective` — a list **without the entries that have no effect**;
* `Session.transcript` — the operations of a run with what each was answered;
* `effective_keeps` — leaving out such operations keeps **the last state and the other answers**;
* `run_frame` — what of the node no run touches;
* `ineffective_operations` — **all of this together**.
-/

namespace PipelineEditor

/-! ## Leaving out operations -/

namespace Operation

/-- Whether an operation is the one that closes a session. -/
def closes : Operation → Bool
  | close => true
  | _ => false

/-- Whether an operation only says that there is no configuration. -/
def lacksConfig : Operation → Bool
  | configUnavailable _ => true
  | _ => false

end Operation

section

variable {α : Type} (operation : α → Operation)

/-- The entries up to the first one that closes the session, which is kept. -/
def upToClose : List α → List α
  | [] => []
  | entry :: rest =>
    if (operation entry).closes then [entry] else entry :: upToClose rest

/-- The entries that are left when those without effect are taken out: everything after the first
closing, and every message that there is no configuration. -/
def effective (entries : List α) : List α :=
  (upToClose operation entries).filter fun entry => !(operation entry).lacksConfig

end

namespace Session

/-- The operations of a run, each with the events that it is answered with. -/
def transcript (s : Session) : List Operation → List (Operation × List Event)
  | [] => []
  | op :: rest => (op, (s.handle op).2) :: (s.handle op).1.transcript rest

/-- The events of a run are those in its transcript. -/
theorem run_events (s : Session) (ops : List Operation) :
    (s.run ops).2 = (s.transcript ops).flatMap Prod.snd := by
  induction ops generalizing s with
  | nil => rfl
  | cons op rest ih => rw [transcript, List.flatMap_cons, ← ih, run_cons]

/-! ## One operation -/

/-- A session is closed after closing, whether or not it was open. -/
theorem Step.closed_of_closes {s s' : Session} {op : Operation} {events : List Event}
    (h : Step s op s' events) (hop : op.closes = true) : s'.closed = true := by
  cases h with
  | ignored hclosed => exact hclosed
  | closed hopen => rfl
  | _ => cases hop

/-- That there is no configuration does not change a session. -/
theorem Step.eq_of_lacksConfig {s s' : Session} {op : Operation} {events : List Event}
    (h : Step s op s' events) (hop : op.lacksConfig = true) : s' = s := by
  cases h with
  | ignored hclosed => rfl
  | lacked hopen => rfl
  | editRefused hopen hfixed => rfl
  | _ => cases hop

/-! ## Runs -/

/-- What comes after a closing neither moves a session nor is answered. -/
theorem upToClose_keeps (s : Session) (ops : List Operation) :
    (s.run (upToClose (fun op => op) ops)).1 = (s.run ops).1 ∧
      s.transcript (upToClose (fun op => op) ops) = upToClose Prod.fst (s.transcript ops) := by
  induction ops generalizing s with
  | nil => exact ⟨rfl, rfl⟩
  | cons op rest ih =>
    simp only [upToClose, transcript]
    cases hcloses : op.closes with
    | true =>
      have hclosed := (step_handle s op).closed_of_closes hcloses
      refine ⟨?_, rfl⟩
      show (s.run [op]).1 = _
      rw [run_cons, run_cons, run_of_closed hclosed, run_of_closed hclosed]
    | false => exact ⟨(ih _).1, congrArg (List.cons _) (ih _).2⟩

/-- The messages that there is no configuration do not move a session. -/
theorem filter_keeps (s : Session) (ops : List Operation) :
    (s.run (ops.filter fun op => !op.lacksConfig)).1 = (s.run ops).1 ∧
      s.transcript (ops.filter fun op => !op.lacksConfig) =
        (s.transcript ops).filter fun entry => !entry.1.lacksConfig := by
  induction ops generalizing s with
  | nil => exact ⟨rfl, rfl⟩
  | cons op rest ih =>
    simp only [List.filter_cons, transcript]
    cases hlacks : op.lacksConfig with
    | true =>
      have hsame : (s.handle op).1 = s := (step_handle s op).eq_of_lacksConfig hlacks
      rw [run_cons, hsame]
      exact ih s
    | false => exact ⟨(ih _).1, congrArg (List.cons _) (ih _).2⟩

/-- **Without its operations that have no effect, a run ends in the same state, and the others are
answered as before.** -/
theorem effective_keeps (s : Session) (ops : List Operation) :
    (s.run (effective (fun op => op) ops)).1 = (s.run ops).1 ∧
      s.transcript (effective (fun op => op) ops) = effective Prod.fst (s.transcript ops) := by
  obtain ⟨hstate, htranscript⟩ := filter_keeps s (upToClose (fun op => op) ops)
  obtain ⟨hlate, hlateTranscript⟩ := upToClose_keeps s ops
  refine ⟨hstate.trans hlate, ?_⟩
  rw [effective, htranscript, hlateTranscript, effective]

/-- A session is closed after every run in which it is closed. -/
theorem closed_of_close (s : Session) (before after : List Operation) :
    (s.run (before ++ .close :: after)).1.closed = true := by
  have hclosed : ((s.run before).1.handle .close).1.closed = true :=
    (step_handle _ _).closed_of_closes rfl
  rw [run_append, run_cons, run_of_closed hclosed]
  exact hclosed

/-- **What no run touches**: of the node everything but its properties, its schema and the mark
that the plugin fixes the schema. -/
theorem run_frame (s : Session) (ops : List Operation) :
    (s.run ops).1.node = { s.node with
      properties := (s.run ops).1.node.properties
      schema := (s.run ops).1.node.schema
      implicit := (s.run ops).1.node.implicit } := by
  refine run_preserves (P := fun t => t.node = { s.node with
    properties := t.node.properties
    schema := t.node.schema
    implicit := t.node.implicit }) ?_ rfl ops
  intro t t' op events hstep ht
  rw [hstep.frame.2.2, ht]

/-- **Operations without effect can be left out of a run.**  Without its messages that there is no
configuration and without everything after its first closing, a run ends in the same state.  The
operations that are left are answered with the same events, and these are all events of the
shorter run.  After a closing no operation is answered at all.  And no run changes the id of the
node, its name, its type, its label, its description or the declarations. -/
theorem ineffective_operations (s : Session) (ops : List Operation) :
    let shorter := effective (fun op => op) ops
    (s.run shorter).1 = (s.run ops).1 ∧
    (s.transcript shorter = effective Prod.fst (s.transcript ops) ∧
      (s.run shorter).2 = (effective Prod.fst (s.transcript ops)).flatMap Prod.snd) ∧
    (∀ before after op, ((s.run (before ++ .close :: after)).1.handle op).2 = []) ∧
    ((s.run ops).1.node.id = s.node.id ∧ (s.run ops).1.node.name = s.node.name ∧
      (s.run ops).1.node.type = s.node.type ∧ (s.run ops).1.node.label = s.node.label ∧
      (s.run ops).1.node.description = s.node.description ∧
      (s.run ops).1.node.declarations = s.node.declarations) := by
  intro shorter
  obtain ⟨hstate, htranscript⟩ := effective_keeps s ops
  refine ⟨hstate, ⟨htranscript, ?_⟩, ?_, ?_⟩
  · rw [run_events, htranscript]
  · intro before after op
    exact (step_handle _ op).silent_of_closed (closed_of_close s before after)
  · rw [run_frame s ops]
    exact ⟨rfl, rfl, rfl, rfl, rfl, rfl⟩

end Session

end PipelineEditor
