import Mathlib.Data.List.TakeWhile
import PipelineEditor.Workspace.Loading

/-!
# The names of widget files

The name of a widget file says for which plugin it is and in which format: what comes before its last
dot is the key of the plugin, and what follows is the extension.  An entry of a directory has a name
without slashes, and the path that leads to it ends with this name.  So it makes no difference
whether the name is taken apart or the path.

* `Path.splitName_eq_some_iff` — **a name with an extension**;
* `Path.exists_parts_join`, `Path.fileName?_of_parts` — the name at the end of a path;
* `WidgetFormat.Names` — the names of the widget files for a key, in a format;
* `WidgetFormat.ofPath_widgetPath` — **the format of a widget file**, which the path to it shows;
* `WidgetLibrary.keyOfFile?_eq_some_iff` — **the key of a widget file**.
-/

namespace PipelineEditor

namespace Path

/-! ## Splitting a name -/

/-- A list is cut at the first place of a character. -/
theorem cut_iff {c d : Char} {cs before rest : List Char} :
    cs.takeWhile (· != c) = before ∧ cs.dropWhile (· != c) = d :: rest ↔
      d = c ∧ c ∉ before ∧ cs = before ++ c :: rest := by
  constructor
  · rintro ⟨rfl, hrest⟩
    have hd : d = c := by
      have hhead := List.head?_dropWhile_not (· != c) cs
      rw [hrest] at hhead
      simpa using hhead
    subst hd
    refine ⟨rfl, fun hmem => by simpa using List.mem_takeWhile_imp hmem, ?_⟩
    calc cs = cs.takeWhile (· != d) ++ cs.dropWhile (· != d) :=
          List.takeWhile_append_dropWhile.symm
      _ = cs.takeWhile (· != d) ++ d :: rest := by rw [hrest]
  · rintro ⟨rfl, hbefore, rfl⟩
    have hkeep : ∀ e ∈ before, (e != d) = true := fun e he =>
      bne_iff_ne.mpr fun heq => hbefore (heq ▸ he)
    rw [List.takeWhile_append_of_pos hkeep, List.dropWhile_append_of_pos hkeep]
    simp

/-- **A name with an extension** has a dot with something in front of it and no dot behind. -/
theorem splitName_eq_some_iff {name stem extension : String} :
    splitName name = (stem, some extension) ↔
      stem ≠ "" ∧ '.' ∉ extension.toList ∧ name = stem ++ "." ++ extension := by
  constructor
  · intro h
    unfold splitName at h
    simp only at h
    split at h
    next dot first before hrest =>
      obtain ⟨rfl, hextension⟩ := Prod.mk.inj h
      obtain rfl := Option.some.inj hextension
      obtain ⟨-, hbehind, hname⟩ := cut_iff.mp ⟨rfl, hrest⟩
      refine ⟨?_, ?_, ?_⟩
      · rw [ne_eq, ← String.toList_inj, String.toList_ofList]
        simp
      · rwa [String.toList_ofList, List.mem_reverse]
      · rw [← String.toList_inj, ← List.reverse_inj]
        exact hname.trans (by simp)
    · simp at h
  · rintro ⟨hstem, hbehind, rfl⟩
    have hchars : (stem ++ "." ++ extension).toList.reverse =
        extension.toList.reverse ++ '.' :: stem.toList.reverse := by simp
    obtain ⟨htake, hdrop⟩ := cut_iff.mpr ⟨rfl, by rwa [List.mem_reverse], hchars⟩
    unfold splitName
    simp only [htake, hdrop]
    split
    next dot first before hrest =>
      rw [← (List.cons.inj hrest).2]
      simp
    next hnone =>
      -- the stem would be empty
      cases hreverse : stem.toList.reverse with
      | nil => exact absurd (by simpa using hreverse) hstem
      | cons first before => exact absurd (by rw [hreverse]) (hnone '.' first before)

/-- A name with an extension is none of the parts that stay in a directory or go up. -/
theorem not_mem_of_splitName {name stem extension : String}
    (hsplit : splitName name = (stem, some extension)) (hextension : extension ≠ "") :
    name ∉ ["", ".", ".."] := by
  have hnone : ∀ special ∈ ["", ".", ".."], ((splitName special).2.getD "") = "" := by decide
  intro hspecial
  have hempty := hnone name hspecial
  rw [hsplit] at hempty
  exact hextension hempty

/-! ## The name at the end of a path -/

theorem parts_of_plain {name : String} (hplain : '/' ∉ name.toList) : parts name = [name] := by
  rw [parts, List.splitOn_eq_singleton hplain]
  simp

theorem parts_under (directory name : String) :
    parts (directory ++ "/" ++ name) = parts directory ++ parts name := by
  have hchars : (directory ++ "/" ++ name).toList =
      directory.toList ++ '/' :: name.toList := by simp
  rw [parts, hchars, List.splitOn_append_cons_self, List.map_append]
  rfl

/-- The path to an entry of a directory ends with the name of the entry. -/
theorem exists_parts_join (directory : String) {name : String} (hplain : '/' ∉ name.toList) :
    ∃ above, parts (join directory name) = above ++ [name] := by
  unfold join
  split
  · exact ⟨[], parts_of_plain hplain⟩
  · split
    · next hslash =>
      rw [String.endsWith_eq_endsWith_toSlice, String.Slice.endsWith_string_iff] at hslash
      obtain ⟨outer, houter⟩ := hslash
      have hdirectory : directory = String.ofList outer ++ "/" := by
        rw [← String.toList_inj]
        simpa using houter.symm
      exact ⟨parts (String.ofList outer), by rw [hdirectory, parts_under, parts_of_plain hplain]⟩
    · exact ⟨parts directory, by rw [parts_under, parts_of_plain hplain]⟩

theorem fileName?_of_parts {path name : String} {above : List String}
    (hparts : parts path = above ++ [name]) (hname : name ∉ ["", ".", ".."]) :
    fileName? path = some name := by
  simp only [List.mem_cons, List.not_mem_nil, or_false, not_or] at hname
  obtain ⟨hempty, hdot, hup⟩ := hname
  rw [fileName?, hparts, List.reverse_append, List.reverse_singleton, List.singleton_append,
    List.dropWhile_cons_of_neg (by simp [hempty, hdot])]
  simp [hup]

/-- The file that a name without slashes leads to has this name. -/
theorem eq_of_fileName? {name other : String} (hplain : '/' ∉ name.toList)
    (hother : fileName? name = some other) : other = name := by
  rw [fileName?, parts_of_plain hplain, List.reverse_singleton] at hother
  split at hother
  · cases hother
  next last rest hlast =>
    split at hother
    · cases hother
    · have hmem : last ∈ [name].dropWhile fun part => part.isEmpty || part == "." := by simp [hlast]
      rw [← Option.some.inj hother]
      exact List.mem_singleton.mp ((List.dropWhile_sublist _).subset hmem)

end Path

/-! ## The key and the format -/

namespace WidgetFormat

/-- The extensions of the files in a format. -/
def extensions : WidgetFormat → List String
  | json => ["json"]
  | yaml => ["yaml", "yml"]

/-- The names of the files that hold, in a format, the configuration of the plugin with a key. -/
def Names (format : WidgetFormat) (key name : String) : Prop :=
  key ≠ "" ∧ ∃ extension ∈ format.extensions, name = key ++ "." ++ extension

instance (format : WidgetFormat) (key name : String) : Decidable (format.Names key name) :=
  inferInstanceAs (Decidable (_ ∧ _))

theorem mem_extensions_iff {extension : String} :
    extension ∈ WidgetLibrary.extensions ↔ ∃ format : WidgetFormat, extension ∈ format.extensions := by
  constructor
  · intro h
    simp only [WidgetLibrary.extensions, List.mem_cons, List.not_mem_nil, or_false] at h
    obtain rfl | rfl | rfl := h
    · exact ⟨json, by decide⟩
    · exact ⟨yaml, by decide⟩
    · exact ⟨yaml, by decide⟩
  · rintro ⟨format, h⟩
    have hsubset : format.extensions ⊆ WidgetLibrary.extensions := by cases format <;> decide
    exact hsubset h

theorem Names.exists_splitName {format : WidgetFormat} {key name : String}
    (h : format.Names key name) :
    ∃ extension ∈ format.extensions,
      Path.splitName name = (key, some extension) ∧ name ∉ ["", ".", ".."] := by
  have hplain : ∀ extension ∈ WidgetLibrary.extensions,
      '.' ∉ extension.toList ∧ extension ≠ "" := by decide
  obtain ⟨hkey, extension, hextension, hname⟩ := h
  obtain ⟨hdot, hne⟩ := hplain extension (mem_extensions_iff.mpr ⟨format, hextension⟩)
  have hsplit := Path.splitName_eq_some_iff.mpr ⟨hkey, hdot, hname⟩
  exact ⟨extension, hextension, hsplit, Path.not_mem_of_splitName hsplit hne⟩

/-- The path to a widget file asks for the format that its name shows. -/
theorem ofPath_widgetPath (root : String) {format : WidgetFormat} {key name : String}
    (hplain : '/' ∉ name.toList) (hname : format.Names key name) :
    ofPath (WorkspaceFiles.widgetPath root name) = format := by
  obtain ⟨extension, hextension, hsplit, hspecial⟩ := hname.exists_splitName
  obtain ⟨above, hparts⟩ :=
    Path.exists_parts_join (WorkspaceFiles.widgetDirectory root) hplain
  have hshown : Path.extension? (WorkspaceFiles.widgetPath root name) = some extension := by
    rw [Path.extension?, WorkspaceFiles.widgetPath, Path.fileName?_of_parts hparts hspecial]
    exact congrArg Prod.snd hsplit
  rw [ofPath, hshown]
  cases format with
  | json => simpa [extensions] using hextension
  | yaml =>
    refine if_neg fun hjson => ?_
    rw [Option.some.inj hjson] at hextension
    exact absurd hextension (by decide)

end WidgetFormat

/-- **The key of a widget file** is what its name has in front of one of the extensions. -/
theorem WidgetLibrary.keyOfFile?_eq_some_iff {name key : String} (hplain : '/' ∉ name.toList) :
    keyOfFile? name = some key ↔ ∃ format : WidgetFormat, format.Names key name := by
  constructor
  · intro h
    unfold keyOfFile? at h
    split at h
    next extension hshown =>
      split at h
      next hextension =>
        obtain ⟨file, hfile, hsnd⟩ := Option.bind_eq_some_iff.mp hshown
        obtain rfl := Path.eq_of_fileName? hplain hfile
        rw [Path.stem?, hfile] at h
        have hsplit : Path.splitName file = (key, some extension) :=
          Prod.ext (Option.some.inj h) hsnd
        obtain ⟨hkey, -, hname⟩ := Path.splitName_eq_some_iff.mp hsplit
        obtain ⟨format, hformat⟩ := WidgetFormat.mem_extensions_iff.mp hextension
        exact ⟨format, hkey, extension, hformat, hname⟩
      · cases h
    · cases h
  · rintro ⟨format, hname⟩
    obtain ⟨extension, hextension, hsplit, hspecial⟩ := hname.exists_splitName
    have hparts : Path.parts name = [] ++ [name] := Path.parts_of_plain hplain
    have hfile := Path.fileName?_of_parts hparts hspecial
    have hknown := WidgetFormat.mem_extensions_iff.mpr ⟨format, hextension⟩
    simp [keyOfFile?, Path.extension?, Path.stem?, hfile, hsplit, hknown]

end PipelineEditor
