import Mathlib.Data.List.Pairwise
import Mathlib.Tactic.Tauto
import PipelineEditor.Proofs.Workspace.FileName

/-!
# What the widget files of a workspace make

Each text is read in two stages, and whichever stage it fails at, there is an entry to record.  So a
directory of texts is always loaded to its end, whatever is in them.  An entry is recorded under the
key that the name of its file shows, in the place of an earlier one, so what the library holds under
a key is what the last file for this key makes, and no other file has a part in it.  Where no two
files are for one key, every file speaks for its own plugin alone.

All of this holds for any two parsers: the first stage is theirs, and nothing is asked of it.

* `WidgetFormat.stages?` — the two stages of reading a text;
* `WidgetFormat.Makes` — **what a text makes of an entry**: a configuration or one of two reasons;
* `TextFile.LastMakes` — the entry that the last file for a key makes;
* `WidgetLibrary.addFile_spec`, `WidgetLibrary.load_spec` — **one file, and a directory of files**;
* `WidgetLibrary.widget_files_isolated` — **every file speaks for its own plugin alone**.
-/

namespace PipelineEditor

variable {parsers : Parsers}

/-! ## Reading a text -/

namespace WidgetFormat

/-- The two stages of reading a text: whether it is well formed, and then whether its value has the
structure of a configuration. -/
def stages? (parsers : Parsers) : WidgetFormat → String → Option (Option WidgetConfig)
  | json, text => (parsers.json text).map fun value => read? value.toSource
  | yaml, text => (parsers.yaml text).map fun value => value.filled?.bind read?

/-- The text is well formed. -/
def WellFormed (parsers : Parsers) (format : WidgetFormat) (text : String) : Prop :=
  (format.stages? parsers text).isSome = true

instance (format : WidgetFormat) (text : String) : Decidable (format.WellFormed parsers text) :=
  inferInstanceAs (Decidable (_ = true))

/-- The text is well formed, and its value fits a configuration. -/
def Holds (parsers : Parsers) (format : WidgetFormat) (text : String) (config : WidgetConfig) :
    Prop :=
  format.stages? parsers text = some (some config)

/-- An entry says what a text holds: a configuration, or the stage at which reading it fails. -/
structure Makes (parsers : Parsers) (format : WidgetFormat) (text : String) (entry : WidgetEntry) :
    Prop where
  config : ∀ config, entry = .ok config ↔ format.Holds parsers text config
  malformed : entry = .error .malformed ↔ ¬ format.WellFormed parsers text
  misshapen : entry = .error .misshapen ↔
    format.WellFormed parsers text ∧ ∀ config, ¬ format.Holds parsers text config

/-- The entry for the outcome of the two stages. -/
def entry (parsers : Parsers) (format : WidgetFormat) (text : String) : WidgetEntry :=
  match format.stages? parsers text with
  | none => .error .malformed
  | some none => .error .misshapen
  | some (some config) => .ok config

theorem makes_entry (format : WidgetFormat) (text : String) :
    format.Makes parsers text (format.entry parsers text) := by
  unfold entry
  split
  next h => constructor <;> simp [Holds, WellFormed, h]
  next h => constructor <;> simp [Holds, WellFormed, h]
  next h => constructor <;> simp [Holds, WellFormed, h, eq_comm]

theorem entry_ne_missing (format : WidgetFormat) (text : String) :
    format.entry parsers text ≠ .error .missing := by
  unfold entry
  split <;> simp

end WidgetFormat

/-- A fault in a text becomes an entry, at either stage and in both formats. -/
theorem WidgetLibrary.entryOf_eq (path text : String) :
    entryOf parsers path text = .ok ((WidgetFormat.ofPath path).entry parsers text) := by
  unfold entryOf WidgetConfig.parse WidgetFormat.entry
  cases WidgetFormat.ofPath path with
  | json =>
    simp only [WidgetFormat.stages?, WidgetConfig.ofJson]
    cases parsers.json text with
    | none => rfl
    | some value =>
      cases hfit : (read? value.toSource : Option WidgetConfig) <;> simp [hfit] <;> rfl
  | yaml =>
    simp only [WidgetFormat.stages?, WidgetConfig.ofYaml]
    cases parsers.yaml text with
    | none => rfl
    | some value =>
      cases hfit : (value.filled?.bind read? : Option WidgetConfig) <;> simp [hfit] <;> rfl

/-! ## Files and the entries they make -/

/-- An entry of a directory that holds text. -/
structure TextFile where
  name : String
  text : String
  /-- The name of an entry has no slash. -/
  plain : '/' ∉ name.toList
  deriving DecidableEq

namespace TextFile

/-- The file as an entry of its directory. -/
def toEntry (f : TextFile) : String × FileContent := (f.name, .text f.text)

/-- The file with another text. -/
def withText (f : TextFile) (text : String) : TextFile := { f with text }

/-- The file is a widget file for the plugin with a key, in one of the formats. -/
def IsFor (f : TextFile) (key : String) : Prop := ∃ format : WidgetFormat, format.Names key f.name

theorem isFor_iff {f : TextFile} {key : String} :
    f.IsFor key ↔ WidgetLibrary.keyOfFile? f.name = some key :=
  (WidgetLibrary.keyOfFile?_eq_some_iff f.plain).symm

theorem IsFor.unique {f : TextFile} {key other : String} (h : f.IsFor key)
    (hother : f.IsFor other) : key = other :=
  Option.some.inj ((isFor_iff.mp h).symm.trans (isFor_iff.mp hother))

instance (f : TextFile) (key : String) : Decidable (f.IsFor key) :=
  decidable_of_iff _ isFor_iff.symm

/-- The entry under a key that the file makes. -/
def Makes (parsers : Parsers) (f : TextFile) (key : String) (entry : WidgetEntry) : Prop :=
  ∃ format : WidgetFormat, format.Names key f.name ∧ entry = format.entry parsers f.text

theorem Makes.isFor {f : TextFile} {key : String} {entry : WidgetEntry}
    (h : f.Makes parsers key entry) : f.IsFor key := by
  obtain ⟨format, hname, -⟩ := h
  exact ⟨format, hname⟩

/-- The path to the file decides what it makes. -/
theorem makes_iff (root : String) {f : TextFile} {key : String} {entry : WidgetEntry}
    (hfor : f.IsFor key) :
    f.Makes parsers key entry ↔
      entry =
        (WidgetFormat.ofPath (WorkspaceFiles.widgetPath root f.name)).entry parsers f.text := by
  constructor
  · rintro ⟨format, hname, hentry⟩
    rwa [WidgetFormat.ofPath_widgetPath root f.plain hname]
  · intro hentry
    obtain ⟨format, hname⟩ := hfor
    rw [WidgetFormat.ofPath_widgetPath root f.plain hname] at hentry
    exact ⟨format, hname, hentry⟩

theorem Makes.unique {f : TextFile} {key : String} {entry other : WidgetEntry}
    (h : f.Makes parsers key entry) (hother : f.Makes parsers key other) : entry = other := by
  have hentry := (makes_iff "" h.isFor).mp h
  exact hentry.trans ((makes_iff "" h.isFor).mp hother).symm

/-! ## The last file for a key -/

/-- The entry under a key that the last file for it makes. -/
def LastMakes (parsers : Parsers) : List TextFile → String → WidgetEntry → Prop
  | [], _, _ => False
  | f :: files, key, entry =>
    LastMakes parsers files key entry ∨
      (∀ g ∈ files, ¬ g.IsFor key) ∧ f.Makes parsers key entry

theorem LastMakes.exists_mem {files : List TextFile} {key : String} {entry : WidgetEntry}
    (h : LastMakes parsers files key entry) : ∃ f ∈ files, f.Makes parsers key entry := by
  induction files with
  | nil => exact h.elim
  | cons f files ih =>
    obtain hlater | ⟨-, hmakes⟩ := h
    · obtain ⟨g, hg, hmakes⟩ := ih hlater
      exact ⟨g, List.mem_cons_of_mem f hg, hmakes⟩
    · exact ⟨f, List.mem_cons_self, hmakes⟩

theorem exists_lastMakes (parsers : Parsers) {files : List TextFile} {key : String}
    (hfor : ∃ f ∈ files, f.IsFor key) : ∃ entry, LastMakes parsers files key entry := by
  induction files with
  | nil => simp at hfor
  | cons f files ih =>
    by_cases hlater : ∃ g ∈ files, g.IsFor key
    · obtain ⟨entry, hlast⟩ := ih hlater
      exact ⟨entry, .inl hlast⟩
    · obtain ⟨format, hname⟩ : f.IsFor key := by simpa [hlater] using hfor
      exact ⟨format.entry parsers f.text, .inr ⟨by simpa using hlater, format, hname, rfl⟩⟩

/-- A file has no part in what is made under the keys of others. -/
theorem lastMakes_middle {before after : List TextFile} {f : TextFile} {key : String}
    {entry : WidgetEntry} (h : ¬ f.IsFor key) :
    LastMakes parsers (before ++ f :: after) key entry ↔
      LastMakes parsers (before ++ after) key entry := by
  induction before with
  | nil =>
    have hmakes : ¬ f.Makes parsers key entry := fun hmakes => h hmakes.isFor
    simp [LastMakes, hmakes]
  | cons g before ih =>
    have hfree : (∀ e ∈ before ++ f :: after, ¬ e.IsFor key) ↔
        ∀ e ∈ before ++ after, ¬ e.IsFor key := by
      rw [List.forall_mem_append, List.forall_mem_append, List.forall_mem_cons,
        and_iff_right h]
    rw [List.cons_append, List.cons_append, LastMakes, LastMakes, ih, hfree]

/-! ## Files with different keys -/

/-- Two files are not for the same plugin. -/
def Apart (f g : TextFile) : Prop := ∀ key, f.IsFor key → ¬ g.IsFor key

instance : Std.Symm Apart := ⟨fun _ _ h key hg hf => h key hf hg⟩

theorem apart_iff {f g : TextFile} :
    Apart f g ↔ WidgetLibrary.keyOfFile? f.name = none ∨
      WidgetLibrary.keyOfFile? f.name ≠ WidgetLibrary.keyOfFile? g.name := by
  simp only [Apart, isFor_iff]
  cases WidgetLibrary.keyOfFile? f.name with
  | none => simp
  | some own => simp [eq_comm]

instance (f g : TextFile) : Decidable (Apart f g) := decidable_of_iff _ apart_iff.symm

/-- No two files are for the same plugin. -/
def OnePerKey (files : List TextFile) : Prop := files.Pairwise Apart

instance (files : List TextFile) : Decidable (OnePerKey files) :=
  inferInstanceAs (Decidable (files.Pairwise Apart))

/-- Files for the plugin with the same key make the same entry. -/
def Agree (parsers : Parsers) (files : List TextFile) : Prop :=
  ∀ f ∈ files, ∀ g ∈ files, ∀ key entry,
    f.Makes parsers key entry → g.IsFor key → g.Makes parsers key entry

theorem OnePerKey.agree {files : List TextFile} (hone : OnePerKey files) :
    Agree parsers files := by
  intro f hf g hg key entry hmakes hfor
  by_cases hsame : f = g
  · exact hsame ▸ hmakes
  · exact absurd hfor (List.Pairwise.forall hone hf hg hsame key hmakes.isFor)

/-- Where files for one key agree, it makes no difference which of them is the last. -/
theorem lastMakes_iff_of_agree {files : List TextFile} (hagree : Agree parsers files)
    {key : String} {entry : WidgetEntry} :
    LastMakes parsers files key entry ↔ ∃ f ∈ files, f.Makes parsers key entry := by
  refine ⟨LastMakes.exists_mem, ?_⟩
  rintro ⟨f, hf, hmakes⟩
  obtain ⟨last, hlast⟩ := exists_lastMakes parsers ⟨f, hf, hmakes.isFor⟩
  obtain ⟨g, hg, hmakesLast⟩ := hlast.exists_mem
  have hsame := hagree f hf g hg key entry hmakes hmakesLast.isFor
  rwa [hsame.unique hmakesLast]

end TextFile

/-! ## Loading -/

namespace WidgetLibrary

open TextFile

/-- **One file** puts what it makes under its key, and leaves the rest of the library alone. -/
theorem addFile_spec (parsers : Parsers) (root : String) (l : WidgetLibrary) (f : TextFile) :
    ∃ next, addFile parsers root l f.toEntry = .ok next ∧ ∀ key entry,
      next.entries.get? key = some entry ↔
        f.Makes parsers key entry ∨ ¬ f.IsFor key ∧ l.entries.get? key = some entry := by
  cases hkey : keyOfFile? f.name with
  | none =>
    have hnone : ∀ key, ¬ f.IsFor key := by
      intro key hfor
      rw [isFor_iff.mp hfor] at hkey
      cases hkey
    refine ⟨l, by simp only [addFile, toEntry, hkey], fun key entry => ?_⟩
    have hmakes : ¬ f.Makes parsers key entry := fun hmakes => hnone key hmakes.isFor
    simp [hnone key, hmakes]
  | some own =>
    have hfor : f.IsFor own := isFor_iff.mpr hkey
    have hadd : addFile parsers root l f.toEntry = .ok (l.insert own
        ((WidgetFormat.ofPath (WorkspaceFiles.widgetPath root f.name)).entry parsers f.text)) := by
      simp only [addFile, toEntry, hkey, entryOf_eq]
      rfl
    refine ⟨_, hadd, fun key entry => ?_⟩
    by_cases hsame : key = own
    · subst hsame
      rw [insert, SortedMap.get?_insert_self, makes_iff root hfor]
      simp [hfor, eq_comm]
    · have hother : ¬ f.IsFor key := fun h => hsame (h.unique hfor)
      have hnot : ¬ f.Makes parsers key entry := fun h => hother h.isFor
      rw [insert, SortedMap.get?_insert_of_ne _ _ hsame]
      simp [hother, hnot]

/-- **A directory of files** is loaded to its end, and its last file for a key decides what is found
under the key. -/
theorem load_spec (parsers : Parsers) (root : String) (files : List TextFile) :
    ∃ library, load parsers root (files.map toEntry) = .ok library ∧ ∀ key entry,
      library.entries.get? key = some entry ↔ LastMakes parsers files key entry := by
  -- from any library, which counts where no file is for the key
  suffices h : ∀ l : WidgetLibrary, ∃ library,
      (files.map toEntry).foldlM (addFile parsers root) l = .ok library ∧ ∀ key entry,
        library.entries.get? key = some entry ↔ LastMakes parsers files key entry ∨
          (∀ f ∈ files, ¬ f.IsFor key) ∧ l.entries.get? key = some entry by
    obtain ⟨library, hload, hspec⟩ := h empty
    refine ⟨library, hload, fun key entry => ?_⟩
    rw [hspec, empty, SortedMap.get?_empty]
    simp
  induction files with
  | nil => exact fun l => ⟨l, rfl, by simp [LastMakes]⟩
  | cons f files ih =>
    intro l
    obtain ⟨next, hadd, hnext⟩ := addFile_spec parsers root l f
    obtain ⟨library, hload, hspec⟩ := ih next
    refine ⟨library, ?_, fun key entry => ?_⟩
    · rw [List.map_cons, List.foldlM_cons, hadd]
      exact hload
    · rw [hspec, hnext, LastMakes, List.forall_mem_cons]
      tauto

/-- A library is determined by what is found in it. -/
theorem ext_entries {l other : WidgetLibrary}
    (h : ∀ key entry, l.entries.get? key = some entry ↔ other.entries.get? key = some entry) :
    l = other := by
  have hget : l.entries = other.entries :=
    SortedMap.ext_get? fun key => Option.ext fun entry => h key entry
  cases l
  cases other
  exact congrArg mk hget

/-! ## What is found under a plugin -/

/-- A library says about every plugin what the file for it says, and that there is none where there
is no file. -/
structure Tells (parsers : Parsers) (library : WidgetLibrary) (files : List TextFile) : Prop where
  file : ∀ f ∈ files, ∀ (format : WidgetFormat) (type name : String),
    format.Names (key type name) f.name → format.Makes parsers f.text (library.fetch type name)
  missing : ∀ type name, library.fetch type name = .error .missing ↔
    ∀ f ∈ files, ¬ f.IsFor (key type name)

theorem tells_of_lastMakes {library : WidgetLibrary} {files : List TextFile}
    (hagree : Agree parsers files)
    (hspec : ∀ key entry,
      library.entries.get? key = some entry ↔ LastMakes parsers files key entry) :
    library.Tells parsers files := by
  have hfetch : ∀ f ∈ files, ∀ (format : WidgetFormat) (type name : String),
      format.Names (key type name) f.name →
        library.fetch type name = format.entry parsers f.text := by
    intro f hf format type name hname
    have hlast := (lastMakes_iff_of_agree hagree).mpr ⟨f, hf, format, hname, rfl⟩
    rw [fetch, (hspec _ _).mpr hlast]
    rfl
  constructor
  · intro f hf format type name hname
    rw [hfetch f hf format type name hname]
    exact format.makes_entry f.text
  · intro type name
    constructor
    · rintro hmissing f hf ⟨format, hname⟩
      rw [hfetch f hf format type name hname] at hmissing
      exact format.entry_ne_missing f.text hmissing
    · intro hnone
      have hget : library.entries.get? (key type name) = none := by
        refine Option.eq_none_iff_forall_ne_some.mpr fun entry hentry => ?_
        obtain ⟨f, hf, hmakes⟩ := ((hspec _ _).mp hentry).exists_mem
        exact hnone f hf hmakes.isFor
      rw [fetch, hget]
      rfl

/-- **Every file speaks for its own plugin alone**, where no two files are for one key: whatever the
parsers and the texts, the library is loaded and says about every plugin what its own file says;
another text in one file changes nothing for the plugins of the others; and a file that is no widget
file might as well not be there. -/
theorem widget_files_isolated (parsers : Parsers) (root : String) {files : List TextFile}
    (hone : OnePerKey files) :
    ∃ library, load parsers root (files.map toEntry) = .ok library ∧ library.Tells parsers files ∧
      ∀ before f after, files = before ++ f :: after →
        (∀ text, ∃ other,
          load parsers root ((before ++ f.withText text :: after).map toEntry) = .ok other ∧
          ∀ type name, ¬ f.IsFor (key type name) →
            other.fetch type name = library.fetch type name) ∧
        ((∀ key, ¬ f.IsFor key) →
          load parsers root ((before ++ after).map toEntry) = .ok library) := by
  obtain ⟨library, hload, hspec⟩ := load_spec parsers root files
  refine ⟨library, hload, tells_of_lastMakes hone.agree hspec, ?_⟩
  rintro before f after rfl
  constructor
  · intro text
    obtain ⟨other, hother, hotherSpec⟩ :=
      load_spec parsers root (before ++ f.withText text :: after)
    refine ⟨other, hother, fun type name hfor => ?_⟩
    have hsame : ¬ (f.withText text).IsFor (key type name) := hfor
    have hget : other.entries.get? (key type name) = library.entries.get? (key type name) := by
      refine Option.ext fun entry => ?_
      rw [hotherSpec, hspec, lastMakes_middle hsame, lastMakes_middle hfor]
    rw [fetch, fetch, hget]
  · intro hfor
    obtain ⟨other, hother, hotherSpec⟩ := load_spec parsers root (before ++ after)
    have hsame : other = library := by
      refine ext_entries fun key entry => ?_
      rw [hotherSpec, hspec, lastMakes_middle (hfor key)]
    rw [hother, hsame]

/-- A configuration, two texts that hold none, and a file of another kind. -/
def sampleFiles : List TextFile :=
  [⟨"Stream-batchsource.json", "\x7b\x7d", by decide⟩, ⟨"File-sink.yml", "[", by decide⟩,
    ⟨"Join-joiner.json", "3", by decide⟩, ⟨"notes.txt", "[", by decide⟩]

/-- With the parsers of this library, the files next to a bad one are loaded, and each bad one gives
its own reason. -/
theorem widget_files_isolated_sample :
    ∃ library, load .standard "" (sampleFiles.map toEntry) = .ok library ∧
      library.fetch "batchsource" "Stream" = .ok ⟨⟨[], SortedMap.empty⟩, none⟩ ∧
      library.fetch "sink" "File" = .error .malformed ∧
      library.fetch "joiner" "Join" = .error .misshapen ∧
      library.fetch "action" "notes" = .error .missing := by
  have hone : OnePerKey sampleFiles := by decide
  obtain ⟨library, hload, ⟨hfile, hmissing⟩, -⟩ := widget_files_isolated .standard "" hone
  refine ⟨library, hload, ?_, ?_, ?_, ?_⟩
  · have hstream :
        WidgetFormat.json.Makes .standard "\x7b\x7d" (library.fetch "batchsource" "Stream") :=
      hfile sampleFiles[0] (by decide) .json "batchsource" "Stream" (by decide)
    exact (hstream.config _).mpr rfl
  · have hsink : WidgetFormat.yaml.Makes .standard "[" (library.fetch "sink" "File") :=
      hfile sampleFiles[1] (by decide) .yaml "sink" "File" (by decide)
    exact hsink.malformed.mpr (by decide)
  · have hjoin : WidgetFormat.json.Makes .standard "3" (library.fetch "joiner" "Join") :=
      hfile sampleFiles[2] (by decide) .json "joiner" "Join" (by decide)
    have hstages : WidgetFormat.json.stages? .standard "3" = some none := rfl
    exact hjoin.misshapen.mpr (by simp [WidgetFormat.WellFormed, WidgetFormat.Holds, hstages])
  · exact (hmissing "action" "notes").mpr (by decide +kernel)

end WidgetLibrary

end PipelineEditor
