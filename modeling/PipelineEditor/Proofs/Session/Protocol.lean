import PipelineEditor.Proofs.Session.Step

/-!
# The order of events

A host may rely on more than the contents of the events.  One operation is answered in one of a
few forms: the groups come first if they are told at all, told properties come before a told
schema, and no kind of change is told twice.  A schema is always told together with what is wrong
with it, in two events that nothing separates; since this pair lies within one answer, it stays
together when the answers of a run are put one after the other.  The last event of a session is
the one that says that it is closed.

* `Answer` — the forms of an answer to one operation;
* `Step.answer` — **every operation is answered in one of the forms**;
* `Answer.ordered` — what is told once, first, and before something else in an answer;
* `Paired`, `run_paired` — changes among which schemas and their checks come in pairs; **those
  that a run tells are paired**;
* `run_closing` — a run tells at most once that the session is closed, and then at its end;
* `events_follow_protocol` — **the protocol that the events of every session keep to**.
-/

namespace PipelineEditor

/-! ## Kinds of changes -/

/-- What a change is about. -/
inductive Change.Kind where
  | groups
  | unavailable
  | properties
  | schema
  | check
  | closing
  deriving DecidableEq

/-- What a change is about. -/
def Change.kind : Change → Kind
  | groupsArranged _ => .groups
  | configUnavailable _ => .unavailable
  | propertiesChanged _ => .properties
  | schemaChanged _ => .schema
  | schemaChecked _ => .check
  | sessionClosed => .closing

/-- What changes are about, in their order. -/
def kinds (changes : List Change) : List Change.Kind := changes.map Change.kind

/-! ## Answers -/

/-- The forms of an answer to one operation, with a mark that says whether the session is closed
after it. -/
inductive Answer : Bool → List Change → Prop
  | nothing (closed : Bool) : Answer closed []
  | groups (groups : List FieldGroup) : Answer false [.groupsArranged groups]
  | fallback (groups : List FieldGroup) (message : String) :
      Answer false [.groupsArranged groups, .configUnavailable message]
  | properties (properties : SortedMap String) : Answer false [.propertiesChanged properties]
  /-- A schema is told with its check, and after the groups and the properties if these are told. -/
  | schema (groups : Option (List FieldGroup)) (properties : Option (SortedMap String))
      (schema : Option String) :
      Answer false ((groups.map .groupsArranged).toList
        ++ (properties.map .propertiesChanged).toList
        ++ [.schemaChanged schema, .schemaChecked (problemMessages schema)])
  | closing : Answer true [.sessionClosed]

namespace Answer

/-- **In an answer** no kind comes twice, the groups come first, and the properties before the
schema. -/
theorem ordered {closed : Bool} {changes : List Change} (h : Answer closed changes) :
    (kinds changes).Nodup ∧ (.groups ∈ kinds changes → (kinds changes).head? = some .groups) ∧
      (kinds changes).Pairwise fun a b => ¬ (a = .schema ∧ b = .properties) := by
  cases h with
  | schema groups properties schema =>
    cases groups <;> cases properties <;> simp [kinds, Change.kind]
  | _ => simp [kinds, Change.kind]

/-- An answer after which a session is open does not say that it is closed. -/
theorem closing_not_mem {changes : List Change} (h : Answer false changes) :
    .closing ∉ kinds changes := by
  cases h with
  | schema groups properties schema =>
    cases groups <;> cases properties <;> simp [kinds, Change.kind]
  | _ => simp [kinds, Change.kind]

/-- An answer after which a session is closed says this, or nothing. -/
theorem eq_closing {changes : List Change} (h : Answer true changes) :
    changes = [] ∨ changes = [.sessionClosed] := by
  cases h with
  | nothing => exact .inl rfl
  | closing => exact .inr rfl

end Answer

/-! ## Pairs -/

/-- Changes among which every schema is followed at once by its check, and every check comes in
this way. -/
inductive Paired : List Change → Prop
  | nil : Paired []
  | other {c : Change} {rest : List Change} (hschema : c.kind ≠ .schema)
      (hcheck : c.kind ≠ .check) (hrest : Paired rest) : Paired (c :: rest)
  | pair (schema : Option String) {rest : List Change} (hrest : Paired rest) :
      Paired (.schemaChanged schema :: .schemaChecked (problemMessages schema) :: rest)

namespace Paired

theorem append {xs ys : List Change} (hx : Paired xs) (hy : Paired ys) : Paired (xs ++ ys) := by
  induction hx with
  | nil => exact hy
  | other hschema hcheck _ ih => exact .other hschema hcheck ih
  | pair schema _ ih => exact .pair schema ih

/-- After a schema its check comes at once. -/
theorem followed {changes : List Change} (h : Paired changes) {i : Nat} {schema : Option String}
    (hi : changes[i]? = some (.schemaChanged schema)) :
    changes[i + 1]? = some (.schemaChecked (problemMessages schema)) := by
  induction h generalizing i with
  | nil => cases hi
  | other hschema hcheck _ ih =>
    cases i with
    | zero =>
      cases hi
      exact absurd rfl hschema
    | succ i => exact ih hi
  | pair told _ ih =>
    match i with
    | 0 =>
      cases hi
      rfl
    | 1 => cases hi
    | i + 2 => exact ih hi

/-- Before a check the schema that it is about has just been told. -/
theorem preceded {changes : List Change} (h : Paired changes) {i : Nat} {problems : List String}
    (hi : changes[i]? = some (.schemaChecked problems)) :
    ∃ j schema, i = j + 1 ∧ changes[j]? = some (.schemaChanged schema) ∧
      problems = problemMessages schema := by
  induction h generalizing i with
  | nil => cases hi
  | other hschema hcheck _ ih =>
    cases i with
    | zero =>
      cases hi
      exact absurd rfl hcheck
    | succ i =>
      obtain ⟨j, schema, rfl, hj, hproblems⟩ := ih hi
      exact ⟨j + 1, schema, rfl, hj, hproblems⟩
  | pair told _ ih =>
    match i with
    | 0 => cases hi
    | 1 =>
      cases hi
      exact ⟨0, told, rfl, rfl, rfl⟩
    | i + 2 =>
      obtain ⟨j, schema, rfl, hj, hproblems⟩ := ih hi
      exact ⟨j + 2, schema, rfl, hj, hproblems⟩

end Paired

/-- The schema and the check in an answer are a pair. -/
theorem Answer.paired {closed : Bool} {changes : List Change} (h : Answer closed changes) :
    Paired changes := by
  cases h with
  | nothing => exact .nil
  | groups groups => exact .other nofun nofun .nil
  | fallback groups message => exact .other nofun nofun (.other nofun nofun .nil)
  | properties properties => exact .other nofun nofun .nil
  | schema groups properties schema =>
    have hpair : Paired [.schemaChanged schema, .schemaChecked (problemMessages schema)] :=
      .pair schema .nil
    cases groups <;> cases properties
    case none.none => exact hpair
    case none.some => exact .other nofun nofun hpair
    case some.none => exact .other nofun nofun hpair
    case some.some => exact .other nofun nofun (.other nofun nofun hpair)
  | closing => exact .other nofun nofun .nil

namespace Session

/-! ## One operation -/

/-- The events that tell changes in a session. -/
def tell (s : Session) (changes : List Change) : List Event := changes.map s.event

theorem changes_tell (s : Session) (changes : List Change) :
    (s.tell changes).map Event.change = changes := by
  rw [tell, List.map_map]
  exact List.map_id changes

/-- Events tell no more of a session than its id. -/
theorem tell_congr {s t : Session} (h : t.id = s.id) : t.tell = s.tell := by
  unfold tell event
  rw [h]

/-- The answer after a schema was written. -/
theorem schemaEvents_answer (s : Session) (groups : Option (List FieldGroup)) (changed : Bool) :
    ∃ changes, s.tell (groups.map .groupsArranged).toList ++ s.schemaEvents changed =
        s.tell changes ∧
      Answer false changes := by
  refine ⟨_, ?_, .schema groups (if changed then some s.node.properties else none) s.node.schema⟩
  cases changed <;> cases groups <;> rfl

/-- **Every operation is answered in one of the forms**, and in the name of the session. -/
theorem Step.answer {s s' : Session} {op : Operation} {events : List Event}
    (h : Step s op s' events) :
    ∃ changes, events = s.tell changes ∧ Answer s'.closed changes := by
  have hplain : ∀ {changes : List Change}, s.closed = false → Answer false changes →
      ∃ others, s.tell changes = s.tell others ∧ Answer s.closed others := by
    intro changes hopen hanswer
    rw [hopen]
    exact ⟨changes, rfl, hanswer⟩
  have hschema : ∀ (t : Session) (groups : Option (List FieldGroup)) (changed : Bool),
      t.id = s.id → s.closed = false →
      ∃ changes, s.tell (groups.map .groupsArranged).toList ++ t.schemaEvents changed =
        s.tell changes ∧ Answer s.closed changes := by
    intro t groups changed hid hopen
    rw [hopen, ← tell_congr hid]
    exact schemaEvents_answer t groups changed
  cases h with
  | ignored hclosed => exact ⟨[], rfl, .nothing _⟩
  | kept hopen hnothing => exact hplain hopen (.groups [])
  | loaded hopen hdeclares => exact hschema _ (some _) _ rfl hopen
  | lacked hopen => exact hplain hopen (.fallback _ _)
  | schemaGiven hopen hkey => exact hschema _ none _ rfl hopen
  | @watchedGiven key value hopen hkey hwatched hfree =>
    exact hschema ((s.withProperty key value).withSchema _) none true rfl hopen
  | propertyGiven hopen hkey hother => exact hplain hopen (.properties _)
  | editRefused hopen hfixed => exact ⟨[], rfl, .nothing _⟩
  | edited hopen hfree => exact hschema _ none _ rfl hopen
  | cleared hopen => exact hschema _ none _ rfl hopen
  | closed hopen => exact ⟨_, rfl, .closing⟩

/-- Every event of an operation names the session. -/
theorem Step.names_session {s s' : Session} {op : Operation} {events : List Event}
    (h : Step s op s' events) {e : Event} (he : e ∈ events) : e.session = s.id := by
  obtain ⟨changes, rfl, -⟩ := h.answer
  obtain ⟨change, -, rfl⟩ := List.mem_map.mp he
  rfl

/-- The changes that an operation is answered with. -/
theorem Step.answer_changes {s s' : Session} {op : Operation} {events : List Event}
    (h : Step s op s' events) : Answer s'.closed (events.map Event.change) := by
  obtain ⟨changes, rfl, hanswer⟩ := h.answer
  rw [changes_tell]
  exact hanswer

/-! ## Runs -/

/-- The changes that a run tells. -/
def told (s : Session) (ops : List Operation) : List Change := (s.run ops).2.map Event.change

theorem told_cons (s : Session) (op : Operation) (rest : List Operation) :
    s.told (op :: rest) = (s.handle op).2.map Event.change ++ (s.handle op).1.told rest :=
  List.map_append

theorem run_names_session (s : Session) (ops : List Operation) :
    ∀ e ∈ (s.run ops).2, e.session = s.id := by
  induction ops generalizing s with
  | nil => exact nofun
  | cons op rest ih =>
    intro e he
    rcases List.mem_append.mp he with hfirst | hrest
    · exact (step_handle s op).names_session hfirst
    · exact (ih _ e hrest).trans (step_handle s op).frame.1

/-- **The changes that a run tells are paired.** -/
theorem run_paired (s : Session) (ops : List Operation) : Paired (s.told ops) := by
  induction ops generalizing s with
  | nil => exact .nil
  | cons op rest ih =>
    rw [told_cons]
    exact (step_handle s op).answer_changes.paired.append (ih _)

/-- **A run tells at most once that the session is closed, and then at its end.** -/
theorem run_closing (s : Session) (ops : List Operation) :
    .closing ∉ kinds (s.told ops) ∨
      ∃ before, s.told ops = before ++ [.sessionClosed] ∧ .closing ∉ kinds before := by
  induction ops generalizing s with
  | nil => exact .inl List.not_mem_nil
  | cons op rest ih =>
    have hanswer := (step_handle s op).answer_changes
    rw [told_cons]
    cases hclosed : (s.handle op).1.closed with
    | true =>
      -- nothing is told after the session is closed
      have hsilent : (s.handle op).1.told rest = [] := by
        rw [told, run_silent_of_closed hclosed]
        rfl
      rw [hclosed] at hanswer
      rw [hsilent, List.append_nil]
      rcases hanswer.eq_closing with hnothing | hclosing
      · rw [hnothing]
        exact .inl List.not_mem_nil
      · rw [hclosing]
        exact .inr ⟨[], rfl, List.not_mem_nil⟩
    | false =>
      rw [hclosed] at hanswer
      have hfirst := hanswer.closing_not_mem
      have hkinds : ∀ later, .closing ∉ kinds later →
          .closing ∉ kinds ((s.handle op).2.map Event.change ++ later) := by
        intro later hlater
        rw [kinds, List.map_append]
        exact List.not_mem_append hfirst hlater
      rcases ih (s.handle op).1 with hnone | ⟨before, hbefore, hnone⟩
      · exact .inl (hkinds _ hnone)
      · refine .inr ⟨_, ?_, hkinds _ hnone⟩
        rw [hbefore, List.append_assoc]

/-- **The protocol that the events of every session keep to.**  Every event names the session.
Every schema is followed at once by its check, and every check is the one of the schema told just
before it.  That the session is closed is told at most once, and then at the end.  No operation is
answered with two changes of one kind; groups come first in an answer, and properties before a
schema. -/
theorem events_follow_protocol (s : Session) (ops : List Operation) :
    (∀ e ∈ (s.run ops).2, e.session = s.id) ∧
    (∀ i schema, (s.told ops)[i]? = some (.schemaChanged schema) →
      (s.told ops)[i + 1]? = some (.schemaChecked (problemMessages schema))) ∧
    (∀ i problems, (s.told ops)[i]? = some (.schemaChecked problems) →
      ∃ j schema, i = j + 1 ∧ (s.told ops)[j]? = some (.schemaChanged schema) ∧
        problems = problemMessages schema) ∧
    ((kinds (s.told ops)).count .closing ≤ 1 ∧
      (.closing ∈ kinds (s.told ops) → (s.told ops).getLast? = some .sessionClosed)) ∧
    ∀ op, let answer := kinds (((s.run ops).1.handle op).2.map Event.change)
      answer.Nodup ∧ (.groups ∈ answer → answer.head? = some .groups) ∧
        answer.Pairwise fun a b => ¬ (a = .schema ∧ b = .properties) := by
  refine ⟨run_names_session s ops, ?_, ?_, ?_, ?_⟩
  · intro i schema hi
    exact (run_paired s ops).followed hi
  · intro i problems hi
    exact (run_paired s ops).preceded hi
  · rcases run_closing s ops with hnone | ⟨before, hbefore, hnone⟩
    · rw [List.count_eq_zero.mpr hnone]
      exact ⟨Nat.zero_le 1, fun h => absurd h hnone⟩
    · have hkinds : kinds (s.told ops) = kinds before ++ [.closing] := by
        rw [hbefore, kinds, List.map_append]
        rfl
      rw [hkinds, hbefore, List.count_append, List.count_eq_zero.mpr hnone]
      exact ⟨Nat.le_refl 1, fun _ => List.getLast?_concat⟩
  · intro op
    exact (step_handle _ op).answer_changes.ordered

/-- On a stream the schema is cleared, and then the session is closed: a schema and a check are
told, and the closing last. -/
theorem events_follow_protocol_stream :
    let ops := [.clearSchema, .close, .clearSchema]
    (streamSession.told ops)[0]? = some (.schemaChanged none) ∧
      (streamSession.told ops)[1]? = some (.schemaChecked (problemMessages none)) ∧
      .closing ∈ kinds (streamSession.told ops) ∧
      (streamSession.told ops).getLast? = some .sessionClosed := by
  intro ops
  obtain ⟨-, hchecked, -, ⟨-, hlast⟩, -⟩ := events_follow_protocol streamSession ops
  have hclosing : .closing ∈ kinds (streamSession.told ops) := by decide
  exact ⟨rfl, hchecked 0 none rfl, hclosing, hlast hclosing⟩

end Session

end PipelineEditor
