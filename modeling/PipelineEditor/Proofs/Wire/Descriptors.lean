import PipelineEditor.Proofs.Wire.Record
import PipelineEditor.Node
import PipelineEditor.Plugin.Fallback
import PipelineEditor.Plugin.Widget

/-!
# Reading back nodes and descriptors

What a backend and a widget configuration say about a plugin is read back part by part.  Records
of texts and truth values are read back whatever they contain.  A record with raw JSON in it is
read back if it was read, because reading has settled repeated members.  The open records keep
members that they do not know beside those that they know; what they keep has names of its own, so
that it is never taken for something else when it is read again.

* `PropertyDeclaration`, `PluginListing`, `Node`, `TypeOptions`, `FallbackReason` — all values
  are read back;
* `FieldWidget`, `GroupLayout`, `Layout` — **the values that were read are read back**.
-/

namespace PipelineEditor

open Wire
open Json hiding ReadsBack

/-! ## What a backend says -/

instance : Exact PropertyDeclaration where
  readsBack d := by
    refine ReadsBack.of_record rfl (fun _ => rfl) (by decide) ?declared ?parts
    case declared =>
      exact .append (.append (.append declared_member declared_member) declared_member)
        declared_memberIfSome
    case parts => simp [List.lookup_append]

instance : Exact PluginListing where
  readsBack p := by
    refine ReadsBack.of_record rfl (fun _ => rfl) (by decide) ?declared ?parts
    case declared =>
      exact .append (.append (.append (.append declared_member declared_member) declared_member)
        declared_memberOrNull) declared_member
    case parts => simp [List.lookup_append]

instance : Exact Node where
  readsBack n := by
    refine ReadsBack.of_record rfl (fun _ => rfl) (by decide) ?declared ?parts
    case declared =>
      exact .append (.append (.append (.append (.append (.append (.append (.append
        declared_member declared_member) declared_member) declared_memberIfSome)
        declared_memberIfSome) declared_member) declared_memberIfSome) declared_member)
        declared_member
    case parts => simp [List.lookup_append]

/-! ## What a configuration says -/

instance : Exact FallbackReason := ⟨FallbackReason.ofCode?_code⟩

instance : Exact TypeOptions where
  readsBack o := by
    refine ReadsBack.of_record rfl (fun _ => rfl) (by decide) ?declared ?parts
    case declared =>
      exact .append (.append declared_member declared_memberIfSome) declared_memberIfSome
    case parts => simp [List.lookup_append]

namespace FieldWidget

theorem readsBack_of_parts {f : FieldWidget} (hproperties : ReadsBack f.properties)
    (hattributes : ∀ e ∈ f.attributes.entries, ReadsBack e.2)
    (hnames : ∀ e ∈ f.attributes.entries,
      e.1 ∉ ["widget", "label", "info", "description", "properties"]) : ReadsBack f := by
  have hothers : (readValues? (asRecord f.attributes.entries).members : Option (List _)) =
      some f.attributes.entries := readValues?_map hattributes
  refine ReadsBack.of_openRecord rfl (fun _ => rfl) (by decide) ?declared hnames ?parts
  case declared =>
    exact .append (.append (.append (.append declared_memberIfSome declared_memberIfSome)
      declared_memberIfSome) declared_memberIfSome) declared_memberIfNonempty
  case parts =>
    simp [List.lookup_append, elim_nonempty hproperties, hothers, f.attributes.ofList_entries]

instance : Lawful FieldWidget where
  readsBack {s f} h := by
    obtain ⟨⟨r, others⟩, hopen, h⟩ := Option.bind_eq_some_iff.mp h
    obtain ⟨attributes, hattributes, h⟩ := Option.bind_eq_some_iff.mp h
    obtain ⟨widget, -, h⟩ := Option.bind_eq_some_iff.mp h
    obtain ⟨label, -, h⟩ := Option.bind_eq_some_iff.mp h
    obtain ⟨info, -, h⟩ := Option.bind_eq_some_iff.mp h
    obtain ⟨description, -, h⟩ := Option.bind_eq_some_iff.mp h
    obtain ⟨properties, hproperties, h⟩ := Option.bind_eq_some_iff.mp h
    cases h
    exact readsBack_of_parts (readsBack_of_withDefault? readsBack_empty hproperties)
      (readsBack_of_mem_ofList hattributes) fun e he =>
        not_mem_of_mem_ofList hopen hattributes he

end FieldWidget

namespace GroupLayout

theorem readsBack_of_fields {g : GroupLayout} (hfields : ReadsBack g.fields) : ReadsBack g := by
  refine ReadsBack.of_record rfl (fun _ => rfl) (by decide) ?declared ?parts
  case declared => exact .append (.append declared_member declared_member) declared_member
  case parts => simp [List.lookup_append, hfields.read?_eq]

instance : Lawful GroupLayout where
  readsBack {s g} h := by
    obtain ⟨r, -, h⟩ := Option.bind_eq_some_iff.mp h
    obtain ⟨display, -, h⟩ := Option.bind_eq_some_iff.mp h
    obtain ⟨position, -, h⟩ := Option.bind_eq_some_iff.mp h
    obtain ⟨fields, hfields, h⟩ := Option.bind_eq_some_iff.mp h
    cases h
    exact readsBack_of_fields (readsBack_of_withDefault? readsBack_empty hfields)

end GroupLayout

namespace Layout

theorem readsBack_of_groups {l : Layout} (hgroups : ∀ e ∈ l.groups.entries, ReadsBack e.2)
    (hnames : ∀ e ∈ l.groups.entries, e.1 ∉ ["position"]) : ReadsBack l := by
  have hmembers : (asRecord (l.groups.entries.map fun e => (e.1, write e.2))).members =
      l.groups.entries.map fun e => (e.1, (write e.2).toSource) := by
    rw [asRecord, List.map_map]
    rfl
  have hothers : (readValues?
      (asRecord (l.groups.entries.map fun e => (e.1, write e.2))).members : Option (List _)) =
      some l.groups.entries := by
    rw [hmembers, readValues?_map hgroups]
  refine ReadsBack.of_openRecord rfl (fun _ => rfl) (by decide) ?declared ?others ?parts
  case declared => exact declared_member
  case others =>
    intro m hm
    obtain ⟨e, he, rfl⟩ := List.mem_map.mp hm
    exact hnames e he
  case parts => simp [hothers, l.groups.ofList_entries]

instance : Lawful Layout where
  readsBack {s l} h := by
    obtain ⟨⟨r, others⟩, hopen, h⟩ := Option.bind_eq_some_iff.mp h
    obtain ⟨groups, hgroups, h⟩ := Option.bind_eq_some_iff.mp h
    obtain ⟨position, -, h⟩ := Option.bind_eq_some_iff.mp h
    cases h
    exact readsBack_of_groups (readsBack_of_mem_ofList hgroups) fun e he =>
      not_mem_of_mem_ofList hopen hgroups he

end Layout

end PipelineEditor
