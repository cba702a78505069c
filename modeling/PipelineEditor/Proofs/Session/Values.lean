import PipelineEditor.Proofs.Form.Defaults
import PipelineEditor.Proofs.Session.Step

/-!
# The values of properties

A session writes properties in three ways: a value that the user gives, the copy of the schema,
and default values when a configuration comes.  The first two have one key each, and the third
only fills what is there and empty.  So an operation leaves the value of every other property
alone, and no property is made or taken away except by the first two.

* `filling` — what an operation puts into an empty property: **nothing, or the default value of
  the configuration that comes**;
* `get?_loaded`, `Step.get?_of_ne`, `Step.get?_eq` — the value of a property after a configuration,
  after any other operation, and after any operation;
* `values_kept` — **what becomes of a value, in one operation and in a run**.
-/

namespace PipelineEditor.Session

/-- What an operation puts into an empty property: the default value that a configuration has for
a declared one, and otherwise nothing. -/
def filling (s : Session) (key : String) : Operation → String
  | .configLoaded config =>
    if s.node.declarations.contains key then (config.defaultOf? key).getD "" else ""
  | _ => ""

/-- The value of a property with an operation's filling put into it. -/
def filled? (s : Session) (op : Operation) (key : String) : Option String :=
  if s.node.properties.get? key = some "" then some (s.filling key op)
  else s.node.properties.get? key

/-- What fills nothing changes nothing. -/
theorem filled?_of_empty {s : Session} {op : Operation} {key : String}
    (h : s.filling key op = "") : s.filled? op key = s.node.properties.get? key := by
  rw [filled?, h]
  split
  next hempty => rw [hempty]
  · rfl

/-- Only a configuration fills, and with its default value. -/
theorem exists_default {s : Session} {op : Operation} {key : String}
    (h : s.filling key op ≠ "") :
    ∃ config, op = .configLoaded config ∧ config.defaultOf? key = some (s.filling key op) := by
  cases op with
  | configLoaded config =>
    refine ⟨config, rfl, ?_⟩
    by_cases hdeclared : s.node.declarations.contains key = true
    · have hfilling : s.filling key (.configLoaded config) = (config.defaultOf? key).getD "" :=
        if_pos hdeclared
      rw [hfilling] at h ⊢
      cases hvalue : config.defaultOf? key with
      | none =>
        rw [hvalue] at h
        exact absurd rfl h
      | some value => rfl
    · exact absurd (if_neg hdeclared) h
  | _ => exact absurd rfl h

/-! ## One operation -/

/-- **The value of a property after a configuration**, if it does not hold the schema then. -/
theorem get?_loaded {s : Session} {config : WidgetConfig} {key : String}
    (hkey : (s.loaded config).schemaKey? ≠ some key) :
    (s.loaded config).node.properties.get? key = s.filled? (.configLoaded config) key := by
  have hbefore : (s.arranged config).schemaKey? ≠ some key := hkey
  have hpatch : (s.loaded config).node.properties.get? key
      = ((Form.arrange s.node config).patch.set.get? key).or (s.node.properties.get? key) := by
    rw [← DefaultPatch.apply_get?]
    exact get?_copied_of_ne hbefore _
  rw [hpatch, Form.arrange_patch_get?]
  by_cases hdeclared : s.node.declarations.contains key = true
  · -- a declared key that the configuration gives first would now hold the schema
    have hother : config.explicitKey? ≠ some key := by
      intro hfirst
      rw [config.explicitKey?_eq] at hfirst
      obtain ⟨⟨stored, options⟩, hstored, rfl⟩ := Option.map_eq_some_iff.mp hfirst
      rw [schemaKey?_loaded hstored, if_pos hdeclared] at hkey
      exact hkey rfl
    have hfilling : s.filling key (.configLoaded config) = (config.defaultOf? key).getD "" :=
      if_pos hdeclared
    rw [filled?, hfilling]
    by_cases hempty : s.node.properties.get? key = some ""
    · rw [if_pos ⟨hdeclared, hother, hempty⟩, if_pos hempty, hempty]
      cases config.defaultOf? key <;> rfl
    · rw [if_neg fun h => hempty h.2.2, if_neg hempty]
      rfl
  · have hfilling : s.filling key (.configLoaded config) = "" := if_neg hdeclared
    rw [if_neg fun h => hdeclared h.1, filled?_of_empty hfilling]
    rfl

/-- **An operation that brings no configuration leaves other properties alone**: all but the one
that it gives a value to and the one that holds the schema. -/
theorem Step.get?_of_ne {s s' : Session} {op : Operation} {events : List Event}
    (h : Step s op s' events) {key : String} (hop : ∀ config, op ≠ .configLoaded config)
    (hset : ∀ value, op ≠ .setProperty key value) (hkey : s'.schemaKey? ≠ some key) :
    s'.node.properties.get? key = s.node.properties.get? key := by
  have hbefore : s.schemaKey? ≠ some key := by
    rw [← (h.held hop).2.1]
    exact hkey
  cases h with
  | ignored hclosed => rfl
  | kept hopen hnothing => exact absurd rfl (hop _)
  | loaded hopen hdeclares => exact absurd rfl (hop _)
  | lacked hopen => rfl
  | schemaGiven hopen hgiven => exact get?_copied_of_ne hbefore _
  | @watchedGiven other value hopen hother hwatched hfree =>
    have hne : key ≠ other := fun heq => hset value (heq ▸ rfl)
    have hgiven : (s.withProperty other value).schemaKey? ≠ some key := hbefore
    exact (get?_copied_of_ne hgiven _).trans (SortedMap.get?_insert_of_ne _ _ hne)
  | @propertyGiven other value hopen hother hunwatched =>
    have hne : key ≠ other := fun heq => hset value (heq ▸ rfl)
    exact SortedMap.get?_insert_of_ne _ _ hne
  | editRefused hopen hfixed => rfl
  | edited hopen hfree => exact get?_copied_of_ne hbefore _
  | cleared hopen => exact get?_copied_of_ne hbefore _
  | closed hopen => rfl

/-- **The value of a property after an operation** on an open session that does not name it, if it
does not hold the schema then. -/
theorem Step.get?_eq {s s' : Session} {op : Operation} {events : List Event}
    (h : Step s op s' events) {key : String} (hopen : s.closed = false)
    (hset : ∀ value, op ≠ .setProperty key value) (hkey : s'.schemaKey? ≠ some key) :
    s'.node.properties.get? key = s.filled? op key := by
  cases op with
  | configLoaded config =>
    cases h with
    | ignored hclosed => exact absurd (hclosed.symm.trans hopen) (by decide)
    | kept hopen hnothing =>
      have hundeclared : ¬ s.node.declarations.contains key = true := by
        rw [← OrderedMap.mem_keys_iff, OrderedMap.keys, List.isEmpty_iff.mp hnothing]
        exact List.not_mem_nil
      have hfilling : s.filling key (.configLoaded config) = "" := if_neg hundeclared
      exact (filled?_of_empty hfilling).symm
    | loaded hopen hdeclares => exact get?_loaded hkey
  | setProperty other value =>
    rw [filled?_of_empty rfl]
    exact h.get?_of_ne nofun hset hkey
  | _ =>
    rw [filled?_of_empty rfl]
    exact h.get?_of_ne nofun nofun hkey

/-- A property is there after an operation that does not name it exactly if it was there before,
provided that it does not hold the schema afterwards. -/
theorem Step.contains_eq {s s' : Session} {op : Operation} {events : List Event}
    (h : Step s op s' events) {key : String} (hset : ∀ value, op ≠ .setProperty key value)
    (hkey : s'.schemaKey? ≠ some key) :
    s'.node.properties.contains key = s.node.properties.contains key := by
  cases hopen : s.closed with
  | true => rw [h.of_closed hopen]
  | false =>
    rw [SortedMap.contains, SortedMap.contains, h.get?_eq hopen hset hkey, filled?]
    split
    next hempty => rw [hempty, Option.isSome_some, Option.isSome_some]
    · rfl

/-! ## What is kept -/

/-- **No operation overwrites a value that the user gave to another property.**  Let an operation
come to an open session, and let a property neither be given a value by it nor hold the schema
after it.  If the property is absent, it stays absent; if it has a value that is not empty, it
keeps it; and if it is empty, it gets the operation's filling, which is empty too unless the
operation brings a configuration with a default value for the property.  Hence a property that is
never given a value and never holds the schema is neither made nor taken away by a whole run. -/
theorem values_kept :
    (∀ (s : Session) (op : Operation) (key : String), s.closed = false →
      (∀ value, op ≠ .setProperty key value) → (s.handle op).1.schemaKey? ≠ some key →
      (s.node.properties.get? key = none →
        (s.handle op).1.node.properties.get? key = none) ∧
      (∀ value, value ≠ "" → s.node.properties.get? key = some value →
        (s.handle op).1.node.properties.get? key = some value) ∧
      (s.node.properties.get? key = some "" →
        (s.handle op).1.node.properties.get? key = some (s.filling key op))) ∧
    (∀ (s : Session) (op : Operation) (key : String), s.filling key op ≠ "" →
      ∃ config, op = .configLoaded config ∧ config.defaultOf? key = some (s.filling key op)) ∧
    ∀ (s : Session) (ops : List Operation) (key : String),
      Along (fun t op => (∀ value, op ≠ .setProperty key value) ∧
        (t.handle op).1.schemaKey? ≠ some key) s ops →
      (s.run ops).1.node.properties.contains key = s.node.properties.contains key := by
  refine ⟨?_, ?_, ?_⟩
  · intro s op key hopen hset hkey
    rw [(step_handle s op).get?_eq hopen hset hkey]
    refine ⟨?_, ?_, ?_⟩
    · intro hnone
      rw [filled?, hnone, if_neg nofun]
    · intro value hvalue hsome
      rw [filled?, hsome, if_neg fun h => hvalue (Option.some.inj h)]
    · intro hempty
      exact if_pos hempty
  · intro s op key hfilling
    exact exists_default hfilling
  · intro s ops key hops
    refine run_preserves_along
      (P := fun t => t.node.properties.contains key = s.node.properties.contains key) ?_ rfl hops
    intro t op _ hop ht
    exact ((step_handle t op).contains_eq hop.1 hop.2).trans ht

/-- A configuration that gives the format a default value. -/
def csvConfig : WidgetConfig where
  layout := ⟨["general"], SortedMap.empty.insert "general" ⟨"General", ["format"],
    SortedMap.empty.insert "format" ⟨none, none, none, none,
      SortedMap.empty.insert "default" (.string "csv"), SortedMap.empty⟩⟩⟩
  schema := none

/-- A configuration fills the empty format of a stream, but makes no path; the next one leaves the
format alone, and a run in which the format is set makes no path either. -/
theorem values_kept_stream :
    let filled := (streamSession.handle (.configLoaded csvConfig)).1
    let ops := [.configLoaded csvConfig, .setProperty "format" "clf", .clearSchema,
      .configLoaded streamConfig, .editSchema []]
    csvConfig.defaultOf? "format" = some "csv" ∧
      filled.node.properties.get? "format" = some "csv" ∧
      filled.node.properties.get? "path" = none ∧
      (filled.handle (.configLoaded streamConfig)).1.node.properties.get? "format" = some "csv" ∧
      (streamSession.run ops).1.node.properties.contains "path" = false := by
  intro filled ops
  obtain ⟨hstep, hfills, hrun⟩ := values_kept
  have hformat := hstep streamSession (.configLoaded csvConfig) "format" rfl nofun (by decide)
  have hpath := hstep streamSession (.configLoaded csvConfig) "path" rfl nofun (by decide)
  have hagain := hstep filled (.configLoaded streamConfig) "format" rfl nofun (by decide)
  obtain ⟨config, hconfig, hdefault⟩ := hfills streamSession (.configLoaded csvConfig) "format"
    (by decide)
  cases hconfig
  have hcsv : filled.node.properties.get? "format" = some "csv" := hformat.2.2 (by decide)
  have hops : Along (fun t op => (∀ value, op ≠ .setProperty "path" value) ∧
      (t.handle op).1.schemaKey? ≠ some "path") streamSession ops :=
    ⟨⟨nofun, by decide⟩, ⟨by simp, by decide⟩, ⟨nofun, by decide⟩, ⟨nofun, by decide⟩,
      ⟨nofun, by decide⟩, trivial⟩
  refine ⟨hdefault, hcsv, hpath.1 rfl, hagain.2.1 "csv" (by decide) hcsv, ?_⟩
  rw [hrun streamSession ops "path" hops]
  rfl

end PipelineEditor.Session
