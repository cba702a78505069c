import PipelineEditor.Proofs.Workspace.Widgets

/-!
# The order of a directory

A directory gives its entries in any order it likes.  The library is the same for all of them as long
as no two files are for one plugin.  But the extension of a file is no part of its key, so a directory
may well hold two: then the one that comes later counts, and the order shows exactly if the two make
different entries.  What entry a file makes is up to the parsers, which may be any.

* `WidgetLibrary.Unordered` — whatever order the files come in, they make the same library;
* `WidgetLibrary.unordered_iff` — **when the order makes no difference**;
* `WidgetLibrary.library_order_iff` — the same for two directories, and for all orders of one.
-/

namespace PipelineEditor

variable {parsers : Parsers}

namespace TextFile

/-- The last file of a list decides what is made under its key. -/
theorem lastMakes_concat {files : List TextFile} {f : TextFile} {key : String} {entry : WidgetEntry}
    (hmakes : f.Makes parsers key entry) : LastMakes parsers (files ++ [f]) key entry := by
  induction files with
  | nil => exact .inr ⟨by simp, hmakes⟩
  | cons g files ih => exact .inl ih

theorem LastMakes.unique {files : List TextFile} {key : String} {entry other : WidgetEntry}
    (h : LastMakes parsers files key entry) (hother : LastMakes parsers files key other) :
    entry = other := by
  induction files with
  | nil => exact h.elim
  | cons f files ih =>
    have hlater : ∀ made, LastMakes parsers files key made → ∃ g ∈ files, g.IsFor key := by
      intro made hmade
      obtain ⟨g, hg, hmakes⟩ := hmade.exists_mem
      exact ⟨g, hg, hmakes.isFor⟩
    obtain hlast | ⟨hnone, hmakes⟩ := h
    · obtain hotherLast | ⟨hnone, -⟩ := hother
      · exact ih hlast hotherLast
      · obtain ⟨g, hg, hfor⟩ := hlater entry hlast
        exact absurd hfor (hnone g hg)
    · obtain hotherLast | ⟨-, hotherMakes⟩ := hother
      · obtain ⟨g, hg, hfor⟩ := hlater other hotherLast
        exact absurd hfor (hnone g hg)
      · exact hmakes.unique hotherMakes

end TextFile

namespace WidgetLibrary

open TextFile

/-- Whatever order the files come in, they make the same library. -/
def Unordered (parsers : Parsers) (root : String) (files : List TextFile) : Prop :=
  ∀ reordered, files.Perm reordered →
    load parsers root (reordered.map toEntry) = load parsers root (files.map toEntry)

/-- Two directories make the same library exactly if the last files for each key make the same
entry. -/
theorem load_eq_iff (parsers : Parsers) (root : String) (files others : List TextFile) :
    load parsers root (files.map toEntry) = load parsers root (others.map toEntry) ↔
      ∀ key entry, LastMakes parsers files key entry ↔ LastMakes parsers others key entry := by
  obtain ⟨library, hload, hspec⟩ := load_spec parsers root files
  obtain ⟨other, hother, hotherSpec⟩ := load_spec parsers root others
  rw [hload, hother, Except.ok.injEq]
  constructor
  · rintro rfl key entry
    rw [← hspec, hotherSpec]
  · intro hlast
    refine ext_entries fun key entry => ?_
    rw [hspec, hotherSpec, hlast]

/-- **When the order makes no difference**: exactly if files for one plugin agree. -/
theorem unordered_iff (parsers : Parsers) (root : String) (files : List TextFile) :
    Unordered parsers root files ↔ Agree parsers files := by
  constructor
  · intro hunordered f hf g hg key entry hmakes hfor
    -- both files are the last one in some order
    have hlast : ∀ last ∈ files, ∀ made,
        last.Makes parsers key made → LastMakes parsers files key made := by
      intro last hlast made hmade
      obtain ⟨before, after, hfiles⟩ := List.append_of_mem hlast
      have hperm : files.Perm (before ++ after ++ [last]) := by
        rw [hfiles]
        exact List.perm_middle.trans (List.perm_append_singleton last _).symm
      have hsame := (load_eq_iff parsers root _ _).mp (hunordered _ hperm)
      exact (hsame key made).mp (lastMakes_concat hmade)
    obtain ⟨format, hname⟩ := hfor
    have hg' : g.Makes parsers key (format.entry parsers g.text) := ⟨format, hname, rfl⟩
    have hsame := (hlast f hf entry hmakes).unique (hlast g hg _ hg')
    rwa [hsame]
  · intro hagree reordered hperm
    have hagree' : Agree parsers reordered := fun f hf g hg =>
      hagree f (hperm.mem_iff.mpr hf) g (hperm.mem_iff.mpr hg)
    refine (load_eq_iff parsers root _ _).mpr fun key entry => ?_
    rw [lastMakes_iff_of_agree hagree, lastMakes_iff_of_agree hagree']
    simp only [hperm.mem_iff]

/-- **Two directories**, or two orders of one, are both loaded, and they make the same library exactly
if their last files for each key make the same entry.  So all orders of a directory make the same
library exactly if its files for one plugin agree, as they do where no two are for one plugin. -/
theorem library_order_iff (parsers : Parsers) (root : String) (files : List TextFile) :
    (∀ others : List TextFile, ∃ library other,
      load parsers root (files.map toEntry) = .ok library ∧
      load parsers root (others.map toEntry) = .ok other ∧
      (library = other ↔
        ∀ key entry, LastMakes parsers files key entry ↔ LastMakes parsers others key entry)) ∧
    (Unordered parsers root files ↔ Agree parsers files) ∧
    (OnePerKey files → Unordered parsers root files) := by
  refine ⟨fun others => ?_, unordered_iff parsers root files,
    fun hone => (unordered_iff parsers root files).mpr hone.agree⟩
  obtain ⟨library, hload, -⟩ := load_spec parsers root files
  obtain ⟨other, hother, -⟩ := load_spec parsers root others
  refine ⟨library, other, hload, hother, ?_⟩
  rw [← load_eq_iff parsers root, hload, hother, Except.ok.injEq]

/-- Files of several plugins, good and bad, make the same library in any order. -/
theorem library_order_iff_sample : Unordered .standard "" sampleFiles := by
  have hone : OnePerKey sampleFiles := by decide
  exact (library_order_iff .standard "" sampleFiles).2.2 hone

/-- Two files whose names differ in the extension only. -/
def clashingFiles : List TextFile :=
  [⟨"Table-sink.json", "\x7b\x7d", by decide⟩, ⟨"Table-sink.yaml", "[", by decide⟩]

/-- Which of two such files counts depends on the order. -/
theorem library_order_matters :
    (clashingFiles.map TextFile.name).Nodup ∧ ¬ Unordered .standard "" clashingFiles := by
  refine ⟨by decide, fun hunordered => ?_⟩
  have hagree := (unordered_iff .standard "" clashingFiles).mp hunordered
  have hjson : clashingFiles[0].Makes .standard "Table-sink" (.ok ⟨⟨[], SortedMap.empty⟩, none⟩) :=
    ⟨.json, by decide, rfl⟩
  have hyaml : clashingFiles[1].Makes .standard "Table-sink" (.error .malformed) :=
    ⟨.yaml, by decide, rfl⟩
  have hsame := hagree _ (by decide) _ (by decide) _ _ hjson hyaml.isFor
  cases hsame.unique hyaml

end WidgetLibrary

end PipelineEditor
