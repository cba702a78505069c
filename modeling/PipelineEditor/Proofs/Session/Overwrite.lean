import PipelineEditor.Proofs.Schema.Rewrite
import PipelineEditor.Proofs.Session.Implied

/-!
# Giving a property two values in turn

Of two values that are given to one property, the second counts.  For a plain property and for the
property of the schema the session is then the one that the second value alone leads to.  The
watched property is different.  Every value for it has the stored schema written again, from what
the value before it has left, so the first value can leave a trace in two ways.  If it implies a
schema, the stored one is withdrawn, and no later value brings it back.  If it does not, the schema
is written twice instead of once, and the second writing makes every map type the one from texts to
texts.  Nothing but the schema and its copy is ever affected.

* `withSchema_withSchema`, `withProperty_withProperty`, `withSchema_withProperty` — writing twice,
  and writing in another order;
* `handle_setProperty` — **the state after a value for a property**, in three cases;
* `Rewrites`, `implies` — properties whose values have the schema written again; values that imply
  one;
* `rebuilt?_again_iff` — **when writing the schema under two values is writing it under the
  second**;
* `last_value_counts` — **when the first value leaves no trace**, and where it may leave one.
-/

namespace PipelineEditor.Session

/-! ## Writing twice -/

theorem setOrErase_setOrErase (properties : SortedMap String) (key : String)
    (first second : Option String) :
    setOrErase (setOrErase properties key first) key second = setOrErase properties key second := by
  refine SortedMap.ext_get? fun other => ?_
  by_cases h : other = key
  · subst h
    rw [get?_setOrErase_self, get?_setOrErase_self]
  · rw [get?_setOrErase_of_ne _ _ h, get?_setOrErase_of_ne _ _ h, get?_setOrErase_of_ne _ _ h]

theorem insert_setOrErase (properties : SortedMap String) {key other : String} (value : String)
    (schema : Option String) (h : key ≠ other) :
    (setOrErase properties key schema).insert other value =
      setOrErase (properties.insert other value) key schema := by
  refine SortedMap.ext_get? fun k => ?_
  by_cases hother : k = other
  · subst hother
    rw [SortedMap.get?_insert_self, get?_setOrErase_of_ne _ _ h.symm, SortedMap.get?_insert_self]
  · rw [SortedMap.get?_insert_of_ne _ _ hother]
    by_cases hkey : k = key
    · subst hkey
      rw [get?_setOrErase_self, get?_setOrErase_self]
    · rw [get?_setOrErase_of_ne _ _ hkey, get?_setOrErase_of_ne _ _ hkey,
        SortedMap.get?_insert_of_ne _ _ hother]

/-- Of two schemas that are written, the second counts. -/
theorem withSchema_withSchema (s : Session) (first second : Option String) :
    (s.withSchema first).withSchema second = s.withSchema second := by
  have hcopied : (s.withSchema first).copied second = s.copied second := by
    have hkey : (s.withSchema first).schemaKey? = s.schemaKey? := rfl
    unfold copied
    rw [hkey]
    split
    next key h =>
      have hfirst : s.copied first = setOrErase s.node.properties key first := by rw [copied, h]
      show setOrErase (s.copied first) key second = _
      rw [hfirst, setOrErase_setOrErase]
    next h =>
      show s.copied first = _
      rw [copied, h]
  rw [withSchema, hcopied]
  rfl

/-- Of two values for one property, the second counts. -/
theorem withProperty_withProperty (s : Session) (key first second : String) :
    (s.withProperty key first).withProperty key second = s.withProperty key second := by
  have hinsert := s.node.properties.insert_insert key first second
  rw [withProperty, withProperty, withProperty, hinsert]

/-- A value for a property and a schema can be written in either order, unless the property holds
the copy of the schema. -/
theorem withSchema_withProperty {s : Session} {key : String} (hkey : s.schemaKey? ≠ some key)
    (schema : Option String) (value : String) :
    (s.withSchema schema).withProperty key value =
      (s.withProperty key value).withSchema schema := by
  have hcopied : (s.copied schema).insert key value = (s.withProperty key value).copied schema := by
    have hsame : (s.withProperty key value).schemaKey? = s.schemaKey? := rfl
    unfold copied
    rw [hsame]
    split
    next other h =>
      have hne : other ≠ key := by
        rintro rfl
        exact hkey h
      exact insert_setOrErase s.node.properties value schema hne
    · rfl
  show { s with node := { s.node with
    schema := schema, properties := (s.copied schema).insert key value } } = _
  rw [hcopied]
  rfl

/-- Where the copy agrees, writing the schema that is there changes nothing. -/
theorem Copied.withSchema_self {s : Session} (h : s.Copied) : s.withSchema s.node.schema = s := by
  have hcopied : s.copied s.node.schema = s.node.properties := by
    unfold copied
    split
    next key hkey => exact setOrErase_eq_self (h key hkey)
    · rfl
  rw [withSchema, hcopied]

/-! ## The state after a value for a property -/

/-- A value for the property has the schema written again: the property is watched, it does not
hold the schema itself, and the plugin leaves the schema to the user. -/
def Rewrites (s : Session) (key : String) : Prop :=
  s.schemaKey? ≠ some key ∧ s.editor.watched = some key ∧ s.node.implicit = false

instance (s : Session) (key : String) : Decidable (s.Rewrites key) := by
  unfold Rewrites
  infer_instance

/-- Whether a value of the watched property implies a schema. -/
def implies (s : Session) (value : String) : Bool := (s.settings.implied.id? value).isSome

/-- The session in which a value is given to a property whose values have the schema written
again. -/
def rewritten (s : Session) (key value : String) : Session :=
  (s.withProperty key value).withSchema (s.withProperty key value).rebuilt?

/-- **The state after a value for a property**: the property of the schema takes the schema, a
watched one has it written again, and any other one just takes the value. -/
theorem handle_setProperty {s : Session} (hopen : s.closed = false) (key value : String) :
    (s.schemaKey? = some key →
      (s.handle (.setProperty key value)).1 = s.withSchema (some value)) ∧
    (s.Rewrites key → (s.handle (.setProperty key value)).1 = s.rewritten key value) ∧
    (s.schemaKey? ≠ some key → ¬ s.Rewrites key →
      (s.handle (.setProperty key value)).1 = s.withProperty key value) := by
  have hstep := step_handle s (.setProperty key value)
  generalize s.handle (.setProperty key value) = answer at hstep ⊢
  obtain ⟨next, events⟩ := answer
  cases hstep with
  | ignored hclosed => exact absurd (hclosed.symm.trans hopen) (by decide)
  | schemaGiven _ hkey => exact ⟨fun _ => rfl, fun h => absurd hkey h.1, fun h => absurd hkey h⟩
  | watchedGiven _ hkey hwatched hfree =>
    exact ⟨fun h => absurd h hkey, fun _ => rfl, fun _ h => absurd ⟨hkey, hwatched, hfree⟩ h⟩
  | propertyGiven _ hkey hother =>
    exact ⟨fun h => absurd h hkey, fun h => absurd h.2 hother, fun _ _ => rfl⟩

/-! ## Writing the schema under two values -/

/-- Under a value of the watched property the schema is implied if the value implies one. -/
theorem suppressed_withProperty {s : Session} {key : String}
    (hwatched : s.editor.watched = some key) (value : String) :
    s.editor.suppressed (s.withProperty key value).node.properties = s.implies value := by
  have hvalue : s.editor.watched.bind (s.withProperty key value).node.properties.get? =
      some value := by
    rw [hwatched]
    exact SortedMap.get?_insert_self s.node.properties key value
  unfold SchemaEditor.suppressed
  rw [hvalue]
  rfl

/-- The schema under a value that implies one is withdrawn. -/
theorem rebuilt?_of_implies {s : Session} {key value : String}
    (hwatched : s.editor.watched = some key) (himplies : s.implies value = true) :
    (s.withProperty key value).rebuilt? = none :=
  SchemaEditor.build?_of_suppressed ((suppressed_withProperty hwatched value).trans himplies) _

/-- Two values in turn lead to the session of the second value, with the schema written under
both. -/
theorem rewritten_rewritten {s : Session} {key : String} (hkey : s.schemaKey? ≠ some key)
    (first second : String) :
    (s.rewritten key first).rewritten key second =
      (s.rewritten key second).withSchema
        ((s.withProperty key second).withSchema (s.withProperty key first).rebuilt?).rebuilt? := by
  have hagain : (s.rewritten key first).withProperty key second =
      (s.withProperty key second).withSchema (s.withProperty key first).rebuilt? := by
    have hstill : (s.withProperty key first).schemaKey? ≠ some key := hkey
    rw [rewritten, withSchema_withProperty hstill, withProperty_withProperty]
  rw [rewritten, hagain, withSchema_withSchema, rewritten, withSchema_withSchema]

/-- **Writing the schema under two values is writing it under the second** if the second implies a
schema; if the first does but the second does not, when there is no column to be written; and if
neither does, when the first writing leaves nothing for the second to change. -/
theorem rebuilt?_again_iff {s : Session} {key : String} (hrewrites : s.Rewrites key)
    (first second : String) :
    ((s.withProperty key second).withSchema (s.withProperty key first).rebuilt?).rebuilt? =
        (s.withProperty key second).rebuilt? ↔
      s.implies second = true ∨
      (s.implies first = true ∧ keptColumns s.node.schema = []) ∨
      (s.implies first = false ∧ ∀ c ∈ keptColumns s.node.schema, ∀ keys values,
        c.type = .map keys values → keys = "string" ∧ values = "string") := by
  obtain ⟨hkey, hwatched, -⟩ := hrewrites
  generalize hbetween : (s.withProperty key first).rebuilt? = between
  have hcopy : ∀ schema, s.editor.suppressed
      ((s.withProperty key second).withSchema schema).node.properties = s.implies second := by
    intro schema
    have hagain : ((s.withProperty key second).withSchema schema).node.properties =
        ((s.withSchema schema).withProperty key second).node.properties := by
      rw [withSchema_withProperty hkey]
    rw [hagain]
    exact suppressed_withProperty (s := s.withSchema schema) hwatched second
  cases hsecond : s.implies second with
  | true =>
    have hnone := rebuilt?_of_implies hwatched hsecond
    have hagain : ((s.withProperty key second).withSchema between).rebuilt? = none :=
      SchemaEditor.build?_of_suppressed ((hcopy between).trans hsecond) _
    simp [hnone, hagain]
  | false =>
    have hfree := (suppressed_withProperty hwatched second).trans hsecond
    have hfreeAgain := (hcopy between).trans hsecond
    have hkept : ((s.withProperty key second).withSchema between).rebuilt? =
        (s.withProperty key second).rebuilt? ↔
          keptColumns between = keptColumns s.node.schema :=
      SchemaEditor.rewrite?_eq_iff hfreeAgain hfree between s.node.schema
    rw [hkept]
    cases hfirst : s.implies first with
    | true =>
      rw [rebuilt?_of_implies hwatched hfirst] at hbetween
      have hnone : keptColumns none = [] := rfl
      rw [← hbetween, hnone, eq_comm]
      simp
    | false =>
      have hwritten : s.editor.rewrite? (s.withProperty key first).node.properties s.node.schema =
          between := hbetween
      rw [← hwritten, SchemaEditor.keptColumns_rewrite?
        ((suppressed_withProperty hwatched first).trans hfirst), map_readBack_eq_self_iff]
      constructor
      · intro htypes
        exact .inr (.inr ⟨rfl, htypes⟩)
      · rintro (himplies | ⟨himplies, -⟩ | ⟨-, htypes⟩)
        · cases himplies
        · cases himplies
        · exact htypes

/-! ## The second value counts -/

/-- **Of two values for one property, the second counts**, in every open state that operations lead
to.  What the first value leaves behind, if anything, is another schema and its copy.  The nodes
are the same except when the property is watched, the second value implies no schema, and either
the first value does and there was a column to be written, or it does not and one of the columns
has a map type other than the one from texts to texts. -/
theorem last_value_counts (id : SessionId) (node : Node) (settings : Settings)
    (ops : List Operation) (s : Session) (hrun : ((new id node settings).run ops).1 = s)
    (hopen : s.closed = false) (key first second : String) :
    let both := ((s.handle (.setProperty key first)).1.handle (.setProperty key second)).1
    let alone := (s.handle (.setProperty key second)).1
    both = alone.withSchema both.node.schema ∧
    (both.node = alone.node ↔
      (s.Rewrites key → s.implies second = false →
        (s.implies first = true → keptColumns s.node.schema = []) ∧
        (s.implies first = false → ∀ c ∈ keptColumns s.node.schema, ∀ keys values,
          c.type = .map keys values → keys = "string" ∧ values = "string"))) := by
  intro both alone
  have hcopied : s.Copied := hrun ▸ run_preserves Step.copied (new_copied id node settings) ops
  have halone : alone.Copied := (step_handle s _).copied hcopied
  have hnext : (s.handle (.setProperty key first)).1.closed = false :=
    ((step_handle s (.setProperty key first)).closed_eq Operation.noConfusion).trans hopen
  obtain ⟨hschema, hwatched, hplain⟩ := handle_setProperty hopen key second
  obtain ⟨hfirstSchema, hfirstWatched, hfirstPlain⟩ := handle_setProperty hopen key first
  obtain ⟨hagainSchema, hagainWatched, hagainPlain⟩ := handle_setProperty hnext key second
  obtain ⟨heditor, hkey, himplicit⟩ :=
    (step_handle s (.setProperty key first)).held fun _ => Operation.noConfusion
  have hrewrites : (s.handle (.setProperty key first)).1.Rewrites key ↔ s.Rewrites key := by
    rw [Rewrites, heditor, hkey, himplicit]
    rfl
  by_cases hcase : s.Rewrites key
  · have hboth : both = (s.rewritten key second).withSchema
        ((s.withProperty key second).withSchema (s.withProperty key first).rebuilt?).rebuilt? := by
      rw [← rewritten_rewritten hcase.1, ← hfirstWatched hcase]
      exact hagainWatched (hrewrites.mpr hcase)
    have hsecond : alone = s.rewritten key second := hwatched hcase
    have hnodes : both.node = alone.node ↔
        ((s.withProperty key second).withSchema (s.withProperty key first).rebuilt?).rebuilt? =
          (s.withProperty key second).rebuilt? := by
      rw [hboth, hsecond]
      constructor
      · intro h
        exact congrArg Node.schema h
      · intro h
        rw [h, rewritten, withSchema_withSchema]
    refine ⟨by rw [hboth, hsecond]; rfl, ?_⟩
    rw [hnodes, rebuilt?_again_iff hcase]
    cases s.implies first <;> cases s.implies second <;> simp [hcase]
  · have hsame : both = alone := by
      by_cases hslot : s.schemaKey? = some key
      · have hagain : both = (s.handle (.setProperty key first)).1.withSchema (some second) :=
          hagainSchema (hkey.trans hslot)
        rw [hagain, hfirstSchema hslot, withSchema_withSchema]
        exact (hschema hslot).symm
      · have hagain : both = (s.handle (.setProperty key first)).1.withProperty key second :=
          hagainPlain (hkey ▸ hslot) (mt hrewrites.mp hcase)
        rw [hagain, hfirstPlain hslot hcase, withProperty_withProperty]
        exact (hplain hslot hcase).symm
    rw [hsame, halone.withSchema_self]
    exact ⟨rfl, iff_of_true rfl fun h => absurd h hcase⟩

/-- A configured stream with a schema of one text. -/
def bodyOperations : List Operation :=
  [.configLoaded streamConfig, .editSchema [.column ⟨"body", .scalar "string", false⟩]]

/-- Two formats that imply no schema: the second alone leads to the same node, and it keeps the
schema. -/
theorem last_value_counts_stream :
    let s := (streamSession.run bodyOperations).1
    s.closed = false ∧ s.Rewrites "format" ∧
      ((s.handle (.setProperty "format" "csv")).1.handle (.setProperty "format" "tsv")).1.node =
        (s.handle (.setProperty "format" "tsv")).1.node ∧
      ((s.handle (.setProperty "format" "csv")).1.handle (.setProperty "format" "clf")).1.node =
        (s.handle (.setProperty "format" "clf")).1.node ∧
      ((s.handle (.setProperty "format" "tsv")).1.node.schema ≠ none) := by
  intro s
  have hopen : s.closed = false := rfl
  have hkept : keptColumns s.node.schema = [⟨"body", .scalar "string", false⟩] := by
    decide +kernel
  obtain ⟨-, hsame⟩ := last_value_counts _ streamNode Settings.standard bodyOperations s rfl hopen
    "format" "csv" "tsv"
  obtain ⟨-, himplied⟩ := last_value_counts _ streamNode Settings.standard bodyOperations s rfl
    hopen "format" "csv" "clf"
  refine ⟨hopen, by decide, hsame.mpr ?_, himplied.mpr ?_, by decide +kernel⟩
  · intro _ _
    refine ⟨fun h => absurd h (by decide), fun _ c hc keys values htype => ?_⟩
    rw [hkept, List.mem_singleton] at hc
    subst hc
    cases htype
  · intro _ h
    exact absurd h (by decide)

/-- A format that implies a schema leaves a trace: the stored schema is gone also under the format
that comes next. -/
theorem last_value_misses_withdrawn_schema :
    ¬ ∀ (id : SessionId) (node : Node) (settings : Settings) (ops : List Operation)
      (s : Session), ((new id node settings).run ops).1 = s → s.closed = false →
      ∀ key first second : String,
        ((s.handle (.setProperty key first)).1.handle (.setProperty key second)).1.node =
          (s.handle (.setProperty key second)).1.node := by
  intro h
  have hnode := h streamSession.id streamNode Settings.standard bodyOperations _ rfl rfl
    "format" "clf" "csv"
  exact absurd (congrArg Node.schema hnode) (by decide +kernel)

end PipelineEditor.Session
