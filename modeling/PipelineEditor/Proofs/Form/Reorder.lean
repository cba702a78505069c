import PipelineEditor.Proofs.Form.DefaultValue
import PipelineEditor.Proofs.Form.Order

/-!
# Other orders of the groups

The groups of a layout are filled one after the other from one list of pending fields, so each might
depend on all that come before it.  It does so only through the fields that they have in common.  A
group takes the listed fields that are pending, and two states in which the same listed fields are
pending are the same to it.  If no two groups list a declared property in common, none of them takes
anything from another, and each takes what it would take if it came first.  Then their order has no
influence on what they hold, on what is left for the last group, or on the default values.

A name that the order repeats gets a second group, which is empty since the first one has taken
everything.  So an order without repetition is needed to speak of the group of a name.

* `WidgetConfig.withOrder`, `WidgetConfig.ListsApart` — another order; **no declared property is in
  two groups**;
* `WidgetConfig.ListsApart.groupOf?_eq_some_iff` — the group of a field is then the one that lists
  it, wherever it stands;
* `Form.alone`, `Form.placed_of_apart` — the group of an entry if it came first, and that it is the
  one that it gets;
* `Form.last?_withOrder` — the last group depends on no order;
* `Form.arrange_reordered` — **the order of groups without common properties does not matter**.
-/

namespace PipelineEditor

/-! ## Orders of a layout -/

namespace WidgetConfig

/-- The configuration with another order of its groups. -/
def withOrder (c : WidgetConfig) (order : List String) : WidgetConfig :=
  { c with layout := { c.layout with position := order } }

/-- No declared property is listed by two of the groups that are shown. -/
def ListsApart (c : WidgetConfig) (declarations : Declarations) : Prop :=
  ∀ a ∈ c.layout.shown, ∀ b ∈ c.layout.shown, ∀ field, declarations.contains field = true →
    field ∈ a.2.position → field ∈ b.2.position → a.1 = b.1

theorem mem_shown_iff (c : WidgetConfig) (entry : String × GroupLayout) :
    entry ∈ c.layout.shown ↔
      entry.1 ∈ c.layout.position ∧ c.layout.groups.get? entry.1 = some entry.2 := by
  rw [Layout.shown, List.mem_filterMap]
  constructor
  · rintro ⟨name, hname, hentry⟩
    obtain ⟨layout, hlayout, rfl⟩ := Option.map_eq_some_iff.mp hentry
    exact ⟨hname, hlayout⟩
  · rintro ⟨hname, hlayout⟩
    exact ⟨entry.1, hname, by rw [hlayout, Option.map_some]⟩

/-- In an order that repeats no name, any two entries list no declared property in common. -/
theorem ListsApart.pairwise {c : WidgetConfig} {declarations : Declarations}
    (h : c.ListsApart declarations) (hdistinct : c.layout.position.Nodup) :
    c.layout.shown.Pairwise fun a b => ∀ field, declarations.contains field = true →
      field ∈ a.2.position → field ∉ b.2.position := by
  have hnames : c.layout.shown.Pairwise fun a b => a.1 ≠ b.1 := by
    refine List.Pairwise.filterMap _ (fun a b hne entry hentry other hother => ?_) hdistinct
    obtain ⟨_, -, rfl⟩ := Option.map_eq_some_iff.mp hentry
    obtain ⟨_, -, rfl⟩ := Option.map_eq_some_iff.mp hother
    exact hne
  refine hnames.imp_of_mem fun ha hb hne field hdeclared hfirst hsecond => ?_
  exact hne (h _ ha _ hb field hdeclared hfirst hsecond)

section Reordered

variable {c : WidgetConfig} {declarations : Declarations} {order : List String}

theorem shown_perm (hperm : c.layout.position.Perm order) :
    c.layout.shown.Perm (c.withOrder order).layout.shown :=
  hperm.filterMap _

theorem ListsApart.withOrder (h : c.ListsApart declarations)
    (hperm : c.layout.position.Perm order) : (c.withOrder order).ListsApart declarations :=
  fun a ha b hb =>
    h a ((shown_perm hperm).mem_iff.mpr ha) b ((shown_perm hperm).mem_iff.mpr hb)

/-- If no other group lists a field, the group that does is the group of the field. -/
theorem ListsApart.groupOf?_eq_some_iff (h : c.ListsApart declarations) {field : String}
    (hdeclared : declarations.contains field = true) (entry : String × GroupLayout) :
    c.groupOf? field = some entry ↔ entry ∈ c.layout.shown ∧ field ∈ entry.2.position := by
  refine ⟨mem_of_groupOf?, ?_⟩
  rintro ⟨hentry, hfield⟩
  have hsome : (c.groupOf? field).isSome = true :=
    List.find?_isSome.mpr ⟨entry, hentry, decide_eq_true hfield⟩
  obtain ⟨found, hfound⟩ := Option.isSome_iff_exists.mp hsome
  obtain ⟨hmember, hlists⟩ := mem_of_groupOf? hfound
  have hname : found.1 = entry.1 := h found hmember entry hentry field hdeclared hlists hfield
  have hlayout := ((c.mem_shown_iff found).mp hmember).2
  rw [hname, ((c.mem_shown_iff entry).mp hentry).2] at hlayout
  rw [hfound, Prod.ext hname (Option.some.inj hlayout).symm]

theorem ListsApart.groupOf?_withOrder (h : c.ListsApart declarations)
    (hperm : c.layout.position.Perm order) {field : String}
    (hdeclared : declarations.contains field = true) :
    (c.withOrder order).groupOf? field = c.groupOf? field := by
  refine Option.ext fun entry => ?_
  rw [(h.withOrder hperm).groupOf?_eq_some_iff hdeclared, h.groupOf?_eq_some_iff hdeclared,
    (shown_perm hperm).mem_iff]

end Reordered

end WidgetConfig

namespace Form

variable (n : Node) (config : WidgetConfig)

/-! ## Reordered groups -/

/-- The group that an entry of the layout would have if it came first. -/
def alone (entry : String × GroupLayout) : FieldGroup :=
  Placement.group ⟨entry.1, entry.2,
    (takeFields entry.2.position (pendingFields n.declarations (arrange n config).slot)).1⟩
    n.declarations

/-- **Groups that list nothing in common are as if each came first.** -/
theorem placed_of_apart (hdistinct : config.layout.position.Nodup)
    (hapart : config.ListsApart n.declarations) :
    placed n config = config.layout.position.filterMap fun name =>
      (config.layout.groups.get? name).map fun layout => alone n config (name, layout) := by
  have hpairs := (hapart.pairwise hdistinct).imp
    (S := fun a b => ∀ field ∈ pendingFields n.declarations (arrange n config).slot,
      field ∈ a.2.position → field ∉ b.2.position)
    fun h field hfield => h field ((mem_pendingFields_iff _ _ _).mp hfield).1
  rw [placed, placements_of_apart (pendingFields_nodup _ _) hpairs, List.map_map, Layout.shown,
    List.map_filterMap]
  refine congrArg (List.filterMap · _) (funext fun name => ?_)
  exact Option.map_map _ _ _

variable {n config} {order : List String}

theorem last?_withOrder (hperm : config.layout.position.Perm order) :
    last? n (config.withOrder order) = last? n config := by
  have hdistinct := pendingFields_nodup n.declarations (arrange n config).slot
  have hrest : unplaced n (config.withOrder order) = unplaced n config := by
    refine (placements_rest_eq_filter _ hdistinct).trans ?_
    rw [unplaced, placements_rest_eq_filter _ hdistinct]
    refine List.filter_congr fun field _ => ?_
    exact (WidgetConfig.shown_perm hperm).symm.all_eq
  rw [last?_eq, last?_eq, hrest]

theorem patch_withOrder (hapart : config.ListsApart n.declarations)
    (hperm : config.layout.position.Perm order) :
    (arrange n (config.withOrder order)).patch = (arrange n config).patch := by
  refine congrArg DefaultPatch.mk (SortedMap.ext_get? fun field => ?_)
  show (arrange n (config.withOrder order)).patch.set.get? field =
    (arrange n config).patch.set.get? field
  rw [arrange_patch_get?, arrange_patch_get?]
  by_cases hdeclared : n.declarations.contains field = true
  · rw [WidgetConfig.defaultOf?, WidgetConfig.defaultOf?, hapart.groupOf?_withOrder hperm hdeclared]
    rfl
  · rw [if_neg (fun h => hdeclared h.1), if_neg (fun h => hdeclared h.1)]

/-- **The order of groups without common properties does not matter.**  If the order of a layout repeats
no name, and no declared property is listed by two of the groups that are shown, any other order of
the same names gives the same default values, the same slot for the schema and the same last group,
or none.  Each name that is defined gets the same group under both orders, and the groups stand in
the order of their names. -/
theorem arrange_reordered (hdistinct : config.layout.position.Nodup)
    (hapart : config.ListsApart n.declarations) (hperm : config.layout.position.Perm order) :
    (arrange n (config.withOrder order)).patch = (arrange n config).patch ∧
    (arrange n (config.withOrder order)).slot = (arrange n config).slot ∧
    ∃ (groupOf : String → Option FieldGroup) (generic : Option FieldGroup),
      (∀ name, (groupOf name).isSome = config.layout.groups.contains name) ∧
      (∀ name g, groupOf name = some g → g.name = name) ∧
      (∀ g, generic = some g → g.Collects n config) ∧
      (arrange n config).groups =
        config.layout.position.filterMap groupOf ++ generic.toList ∧
      (arrange n (config.withOrder order)).groups =
        order.filterMap groupOf ++ generic.toList := by
  refine ⟨patch_withOrder hapart hperm, rfl,
    fun name => (config.layout.groups.get? name).map fun layout => alone n config (name, layout),
    last? n config, fun name => Option.isSome_map, ?_, fun g => last?_collects n config, ?_, ?_⟩
  · intro name g hg
    obtain ⟨layout, -, rfl⟩ := Option.map_eq_some_iff.mp hg
    rfl
  · rw [arrange_groups, placed_of_apart n config hdistinct hapart]
  · rw [arrange_groups, last?_withOrder hperm,
      placed_of_apart n _ (hperm.nodup_iff.mp hdistinct) (hapart.withOrder hperm)]
    rfl

/-- A node with three declared properties, one of which is there and empty. -/
def pairNode : Node :=
  { formatNode with
    properties := SortedMap.empty.insert "b" ""
    declarations := ⟨[("a", ⟨"a", "", false, none⟩), ("b", ⟨"b", "", false, none⟩),
      ("c", ⟨"c", "", false, none⟩)], by decide⟩ }

/-- A configuration with two groups, which have only an unknown field in common.  The first has a
default value, and a name between them is not defined. -/
def pairConfig : WidgetConfig where
  layout := ⟨["first", "missing", "second"],
    (SortedMap.empty.insert "first" ⟨"First", ["unknown", "b"], SortedMap.empty.insert "b"
      ⟨none, none, none, none, SortedMap.empty.insert "default" (.string "x"),
        SortedMap.empty⟩⟩).insert "second" ⟨"Second", ["a", "unknown"], SortedMap.empty⟩⟩
  schema := none

theorem pairConfig_listsApart : pairConfig.ListsApart pairNode.declarations := by
  intro a ha b hb field hdeclared hfirst hsecond
  have hshown : pairConfig.layout.shown.map (fun g => (g.1, g.2.position)) =
      [("first", ["unknown", "b"]), ("second", ["a", "unknown"])] := rfl
  have ha := List.mem_map_of_mem (f := fun g => (g.1, g.2.position)) ha
  have hb := List.mem_map_of_mem (f := fun g => (g.1, g.2.position)) hb
  rw [hshown] at ha hb
  have hknown : field ≠ "unknown" := by
    rintro rfl
    exact absurd hdeclared (by decide)
  grind

/-- The two groups change places. -/
theorem arrange_reordered_pair :
    (arrange pairNode pairConfig).groups.map FieldGroup.position = [["b"], ["a"], ["c"]] ∧
      (arrange pairNode (pairConfig.withOrder ["second", "missing", "first"])).groups.map
        FieldGroup.position = [["a"], ["b"], ["c"]] ∧
      (arrange pairNode pairConfig).patch.set.get? "b" = some "x" ∧
      (arrange pairNode (pairConfig.withOrder ["second", "missing", "first"])).patch.set.get? "b" =
        some "x" := by
  have hvalue : (arrange pairNode pairConfig).patch.set.get? "b" = some "x" := by decide
  have hperm : pairConfig.layout.position.Perm ["second", "missing", "first"] := by decide
  obtain ⟨hpatch, -⟩ := arrange_reordered (by decide) pairConfig_listsApart hperm
  refine ⟨rfl, rfl, hvalue, ?_⟩
  rw [hpatch]
  exact hvalue

end Form

end PipelineEditor
