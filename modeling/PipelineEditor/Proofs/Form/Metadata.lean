import PipelineEditor.Proofs.Form.DefaultValue
import PipelineEditor.Proofs.Form.Order

/-!
# How the fields of a form are shown

A field gets into a form in one of two ways.  A group of the layout takes it and looks at its own
widget for it, or no group takes it and it is shown with fixed texts.  The two ways are written
apart, and each has fallbacks of its own.  They agree: a field that no group takes is shown like one
whose widget says nothing.  So there is one rule for all fields of a form, and it looks at the widget
that the first group listing a field has for it.

What a widget leaves out is treated in two different ways.  An empty description counts as none, so
that the backend is asked; an empty label, information or kind of widget is shown as it is.

* `Describes`, `ShownField.Follows` — **the rule**, for the description and for everything else;
* `ShownField.follows_iff`, `ShownField.unlisted_follows` — both ways follow it;
* `WidgetConfig.widgetFor` — the widget of a field under a configuration;
* `FieldGroup.Follows` — a group all of whose fields follow the rule;
* `Form.arrange_follows`, `Form.plain_follows` — **so do all groups of a form**;
* `Form.arrange_eq_plain` — the form of a configuration that defines nothing;
* `Form.fields_follow_rule` — these together.
-/

namespace PipelineEditor

/-! ## The rule -/

/-- The text that describes a field: what its widget says, or else what the backend says, or else a
fixed text.  Who says the empty text says nothing. -/
inductive Describes (declarations : Declarations) (field : String) (w : FieldWidget) :
    String → Prop
  | widget {text : String} (hgiven : w.description = some text) (h : text ≠ "") :
    Describes declarations field w text
  | backend {d : PropertyDeclaration} (hsilent : ∀ text, w.description = some text → text = "")
    (hgiven : declarations.get? field = some d) (h : d.description ≠ "") :
    Describes declarations field w d.description
  | neither (hsilent : ∀ text, w.description = some text → text = "")
    (h : ∀ d, declarations.get? field = some d → d.description = "") :
    Describes declarations field w "No Description Available"

/-- A field is shown by the rule for a widget. -/
structure ShownField.Follows (shown : ShownField) (declarations : Declarations) (field : String)
    (w : FieldWidget) : Prop where
  widget : shown.widget = w.widget.getD "textbox"
  label : shown.label = w.label.getD field
  info : shown.info = w.info.getD "Info"
  description : Describes declarations field w shown.description
  properties : shown.properties = w.properties
  attributes : shown.attributes = w.attributes

theorem nonempty?_eq_some_iff {text : Option String} {s : String} :
    nonempty? text = some s ↔ text = some s ∧ s ≠ "" := by
  rw [nonempty?, Option.filter_eq_some_iff, decide_eq_true_eq]

theorem nonempty?_eq_none_iff {text : Option String} :
    nonempty? text = none ↔ ∀ s, text = some s → s = "" := by
  rw [nonempty?, Option.filter_eq_none_iff]
  simp

namespace ShownField

variable (declarations : Declarations) (field : String) (w : FieldWidget)

theorem describes_resolve :
    Describes declarations field w (resolve declarations field w).description := by
  show Describes declarations field w ((nonempty? w.description).getD _)
  cases hwidget : nonempty? w.description with
  | some text =>
    obtain ⟨hgiven, hne⟩ := nonempty?_eq_some_iff.mp hwidget
    exact .widget hgiven hne
  | none =>
    have hsilent := nonempty?_eq_none_iff.mp hwidget
    rw [Option.getD_none, Declarations.description]
    cases hbackend : nonempty? ((declarations.get? field).map PropertyDeclaration.description) with
    | some text =>
      obtain ⟨hgiven, hne⟩ := nonempty?_eq_some_iff.mp hbackend
      obtain ⟨d, hd, rfl⟩ := Option.map_eq_some_iff.mp hgiven
      exact .backend hsilent hd hne
    | none =>
      refine .neither hsilent fun d hd => ?_
      refine nonempty?_eq_none_iff.mp hbackend d.description ?_
      rw [hd, Option.map_some]

/-- No other text describes a field. -/
theorem describes_eq {text : String} (h : Describes declarations field w text) :
    text = (resolve declarations field w).description := by
  show text = (nonempty? w.description).getD (Declarations.description declarations field)
  cases h with
  | widget hgiven hne => rw [nonempty?_eq_some_iff.mpr ⟨hgiven, hne⟩, Option.getD_some]
  | backend hsilent hgiven hne =>
    rw [nonempty?_eq_none_iff.mpr hsilent, Option.getD_none, Declarations.description, hgiven,
      Option.map_some, nonempty?_eq_some_iff.mpr ⟨rfl, hne⟩, Option.getD_some]
  | neither hsilent h =>
    have hbackend : nonempty? ((declarations.get? field).map PropertyDeclaration.description)
        = none := by
      refine nonempty?_eq_none_iff.mpr fun s hs => ?_
      obtain ⟨d, hd, rfl⟩ := Option.map_eq_some_iff.mp hs
      exact h d hd
    rw [nonempty?_eq_none_iff.mpr hsilent, Option.getD_none, Declarations.description, hbackend,
      Option.getD_none]

/-- **The rule leaves no choice**: a field of a group is shown by it, and nothing else is. -/
theorem follows_iff {shown : ShownField} :
    shown.Follows declarations field w ↔ shown = resolve declarations field w := by
  constructor
  · rintro ⟨hwidget, hlabel, hinfo, hdescription, hproperties, hattributes⟩
    have hdescription := describes_eq declarations field w hdescription
    cases shown
    simp only at hwidget hlabel hinfo hdescription hproperties hattributes
    rw [hwidget, hlabel, hinfo, hdescription, hproperties, hattributes]
    rfl
  · rintro rfl
    exact ⟨rfl, rfl, rfl, describes_resolve declarations field w, rfl, rfl⟩

/-- **A field that no group lists is shown like one whose widget says nothing.** -/
theorem unlisted_follows :
    (unlisted declarations field).Follows declarations field FieldWidget.plain :=
  (follows_iff declarations field FieldWidget.plain).mpr rfl

end ShownField

/-! ## Groups -/

/-- The fields of a group are those that it lists, and each is shown by the rule for its widget. -/
structure FieldGroup.Follows (g : FieldGroup) (declarations : Declarations)
    (widgetFor : String → FieldWidget) : Prop where
  described : ∀ field, g.fields.contains field = true ↔ field ∈ g.position
  shown : ∀ field shown, g.fields.get? field = some shown →
    shown.Follows declarations field (widgetFor field)

/-- How a group that follows the rule shows a field. -/
theorem FieldGroup.Follows.get?_eq {g : FieldGroup} {declarations : Declarations}
    {widgetFor : String → FieldWidget} (h : g.Follows declarations widgetFor) {field : String}
    (hfield : field ∈ g.position) :
    g.fields.get? field = some (ShownField.resolve declarations field (widgetFor field)) := by
  obtain ⟨shown, hshown⟩ := Option.isSome_iff_exists.mp ((h.described field).mpr hfield)
  rw [hshown, (ShownField.follows_iff _ _ _).mp (h.shown field shown hshown)]

/-- A group whose fields are made one by one, each by the rule. -/
theorem FieldGroup.follows_of_fields {g : FieldGroup} {declarations : Declarations}
    {widgetFor : String → FieldWidget} {shown : String → ShownField}
    (hfields : g.fields = SortedMap.ofList (g.position.map fun f => (f, shown f)))
    (hshown : ∀ field ∈ g.position, (shown field).Follows declarations field (widgetFor field)) :
    g.Follows declarations widgetFor where
  described := fun field => by
    rw [hfields]
    exact contains_describe g.position shown field
  shown := fun field found hfound => by
    rw [hfields, get?_describe, Option.ite_none_right_eq_some] at hfound
    obtain ⟨hfield, hfound⟩ := hfound
    rw [← Option.some.inj hfound]
    exact hshown field hfield

/-! ## Configurations -/

/-- The widget that a configuration has for a field: the one that the first group listing the field
has for it, or the one that says nothing. -/
def WidgetConfig.widgetFor (c : WidgetConfig) (field : String) : FieldWidget :=
  match c.groupOf? field with
  | some (_, g) => (g.fields.get? field).getD FieldWidget.plain
  | none => FieldWidget.plain

namespace WidgetConfig

theorem widgetFor_of_groupOf? {c : WidgetConfig} {field name : String} {g : GroupLayout}
    (h : c.groupOf? field = some (name, g)) : c.widgetFor field = g.widgetOf field := by
  rw [widgetFor, h]
  rfl

theorem widgetFor_of_unlisted {c : WidgetConfig} {field : String}
    (h : ∀ entry ∈ c.layout.shown, field ∉ entry.2.position) :
    c.widgetFor field = FieldWidget.plain := by
  rw [widgetFor, groupOf?_eq_none_iff.mpr h]

/-- A configuration that defines none of the groups in its order shows no group. -/
theorem shown_eq_nil {c : WidgetConfig}
    (h : ∀ name ∈ c.layout.position, c.layout.groups.get? name = none) : c.layout.shown = [] := by
  refine List.filterMap_eq_nil_iff.mpr fun name hname => ?_
  rw [h name hname, Option.map_none]

end WidgetConfig

/-! ## Forms -/

namespace Form

variable (n : Node) (config : WidgetConfig)

/-- The last group of a form follows the rule for widgets that say nothing. -/
theorem last?_follows {g : FieldGroup} (hg : last? n config = some g) :
    g.Follows n.declarations fun _ => FieldWidget.plain :=
  FieldGroup.follows_of_fields (genericGroup?_eq_some hg).2.2 fun field _ =>
    ShownField.unlisted_follows n.declarations field

/-- **Every group of a form follows the rule for the widgets of the configuration.** -/
theorem arrange_follows {g : FieldGroup} (hg : g ∈ (arrange n config).groups) :
    g.Follows n.declarations config.widgetFor := by
  rw [arrange_groups] at hg
  rcases List.mem_append.mp hg with hplaced | hlast
  · obtain ⟨p, hp, rfl⟩ := List.mem_map.mp hplaced
    refine FieldGroup.follows_of_fields rfl fun field hfield => ?_
    have hgroup := placements_first (pendingFields_nodup _ _) hp hfield
    rw [WidgetConfig.widgetFor_of_groupOf? hgroup]
    exact (ShownField.follows_iff _ _ _).mpr rfl
  · have hlast := Option.mem_toList.mp hlast
    refine FieldGroup.follows_of_fields (genericGroup?_eq_some hlast).2.2 fun field hfield => ?_
    have hunlisted := (((last?_collects n config hlast).holds field).mp hfield).2
    rw [WidgetConfig.widgetFor_of_unlisted hunlisted]
    exact ShownField.unlisted_follows n.declarations field

/-- **Every group of a form without a configuration follows the rule for widgets that say
nothing.** -/
theorem plain_follows {g : FieldGroup} (hg : g ∈ (plain n).groups) :
    g.Follows n.declarations fun _ => FieldWidget.plain :=
  FieldGroup.follows_of_fields (genericGroup?_eq_some (Option.mem_toList.mp hg)).2.2 fun field _ =>
    ShownField.unlisted_follows n.declarations field

/-- **A configuration that stores no schema and shows no group says nothing.** -/
theorem arrange_eq_plain (hkey : config.explicitKey? = none) (hshown : config.layout.shown = []) :
    arrange n config = plain n := by
  have hstored : config.stored? = none := by
    rw [WidgetConfig.explicitKey?_eq] at hkey
    exact Option.map_eq_none_iff.mp hkey
  unfold arrange plain
  rw [hshown, hstored]
  rfl

/-- **All fields of a form are shown by one rule**, with a configuration and without one: every
field of a group by the widget that the first group listing it has for it, and by the widget that
says nothing if this group has none for it, if no group lists it, or if there is no configuration.
Hence a field of the last group is shown as under any configuration whose first group that lists the
field has no widget for it.  A configuration that stores no schema and defines none of the groups in
its order gives the same form as none. -/
theorem fields_follow_rule :
    (∀ g ∈ (arrange n config).groups, g.Follows n.declarations config.widgetFor) ∧
    (∀ g ∈ (plain n).groups, g.Follows n.declarations fun _ => FieldWidget.plain) ∧
    (∀ generic field, last? n config = some generic → field ∈ generic.position →
      ∀ (other : WidgetConfig) (name : String) (layout : GroupLayout),
        other.layout.FirstLists field name layout → layout.fields.get? field = none →
        ∀ g ∈ (arrange n other).groups, field ∈ g.position →
          g.fields.get? field = generic.fields.get? field) ∧
    (config.explicitKey? = none →
      (∀ name ∈ config.layout.position, config.layout.groups.get? name = none) →
      arrange n config = plain n) := by
  refine ⟨fun g hg => arrange_follows n config hg, fun g hg => plain_follows n hg, ?_, ?_⟩
  · intro generic field hlast hfield other name layout hlists hsilent g hg hmember
    have hwidget : other.widgetFor field = FieldWidget.plain := by
      rw [WidgetConfig.widgetFor_of_groupOf? (WidgetConfig.groupOf?_eq_some_iff.mpr hlists),
        GroupLayout.widgetOf, hsilent, Option.getD_none]
    rw [(arrange_follows n other hg).get?_eq hmember, hwidget,
      (last?_follows n config hlast).get?_eq hfield]
  · intro hkey hnone
    exact arrange_eq_plain n config hkey (WidgetConfig.shown_eq_nil hnone)

/-- A configuration whose order names a group that it does not define. -/
def undefinedConfig : WidgetConfig := ⟨⟨["general"], SortedMap.empty⟩, none⟩

/-- A configuration with a group that lists the format and has no widget for it. -/
def silentConfig : WidgetConfig :=
  ⟨⟨["general"], SortedMap.empty.insert "general" ⟨"General", ["format"], SortedMap.empty⟩⟩, none⟩

/-- Without a defined group the format is in the last group, and there it is shown as in the group
that has no widget for it. -/
theorem fields_follow_rule_format :
    arrange formatNode undefinedConfig = plain formatNode ∧
      ∃ generic g, last? formatNode undefinedConfig = some generic ∧
        (arrange formatNode silentConfig).groups = [g] ∧ g.name = "general" ∧
        "format" ∈ g.position ∧ g.fields.get? "format" = generic.fields.get? "format" := by
  obtain ⟨-, -, hlast, hplain⟩ := fields_follow_rule formatNode undefinedConfig
  refine ⟨hplain rfl (fun _ _ => rfl), _, _, rfl, rfl, rfl, by decide, ?_⟩
  refine hlast _ "format" rfl (by decide) silentConfig "general" _ ⟨[], [], rfl, rfl, ?_, ?_⟩ rfl
    _ List.mem_cons_self (by decide)
  · exact List.mem_singleton_self _
  · exact fun _ hnone => absurd hnone List.not_mem_nil

end Form

end PipelineEditor
