import PipelineEditor.Schema.Settings
import PipelineEditor.Toml.Document
import PipelineEditor.Workspace.Library
import PipelineEditor.Workspace.WidgetFile

/-!
# Loading a workspace

A workspace keeps its configuration in one directory: a file with the general settings, and a
directory with a widget file for each plugin.  Whatever is not there has its standard value.  A
widget file with bad content is recorded as such and does not stand in the way of the others;
a file that cannot be read, or bad settings, stop the loading.  The parsers of widget files are
given.

* `WorkspaceFiles` — the files that were found;
* `WidgetLibrary.addFile` — **one more widget file**, in whatever state it is;
* `Workspace.loadWith` — the workspace that files make, or what is wrong with one of them;
* `Workspace.load` — the same by the parsers of this library.
-/

namespace PipelineEditor

/-- What is found where a file may be. -/
inductive FileContent where
  /-- A directory, or a file that holds no text. -/
  | unreadable
  | text (content : String)
  deriving DecidableEq, Repr

/-- The files of a workspace. -/
structure WorkspaceFiles where
  /-- The general settings, if there is something in their place. -/
  settings : Option FileContent
  /-- The entries of the directory of widget files with their names, in the order in which they
  are met. -/
  widgets : List (String × FileContent)

namespace WorkspaceFiles

/-- No files. -/
def none : WorkspaceFiles := ⟨.none, []⟩

/-- The directory that holds the configuration of the workspace at a path. -/
def directory (root : String) : String := Path.join root ".hydrator"

/-- The path of the general settings. -/
def settingsPath (root : String) : String := Path.join (directory root) "config.toml"

/-- The directory of the widget files. -/
def widgetDirectory (root : String) : String := Path.join (directory root) "widgets"

/-- The path of the widget file with a name. -/
def widgetPath (root name : String) : String := Path.join (widgetDirectory root) name

end WorkspaceFiles

/-- The settings that a text holds. -/
def Settings.ofText? (text : String) : Option Settings := (Toml.parse? text).bind read?

/-- The settings of a workspace, given what is found in their place. -/
def Settings.load (root : String) : Option FileContent → Except LoadFault Settings
  | none => .ok standard
  | some .unreadable => .error ⟨WorkspaceFiles.settingsPath root, .unreadable⟩
  | some (.text content) =>
    match ofText? content with
    | some settings => .ok settings
    | none => .error ⟨WorkspaceFiles.settingsPath root, .malformedToml⟩

namespace WidgetLibrary

/-- The extensions of widget files. -/
def extensions : List String := ["json", "yaml", "yml"]

/-- The key of the plugin whose widget file has a name, if it is the name of a widget file. -/
def keyOfFile? (name : String) : Option String :=
  match Path.extension? name with
  | some e => if e ∈ extensions then Path.stem? name else none
  | none => none

section

variable (parsers : Parsers)

/-- The entry that the text of a widget file makes; faults in the text become the reason for a
fallback. -/
def entryOf (path text : String) : Except LoadFault WidgetEntry :=
  match WidgetConfig.parse parsers path text with
  | .ok config => .ok (.ok config)
  | .error fault =>
    match fault.fallback? with
    | some reason => .ok (.error reason)
    | none => .error fault

/-- Takes in one more entry of the directory of widget files; everything that is no widget file
is passed over. -/
def addFile (root : String) (l : WidgetLibrary) (file : String × FileContent) :
    Except LoadFault WidgetLibrary :=
  match keyOfFile? file.1 with
  | none => .ok l
  | some key =>
    match file.2 with
    | .unreadable => .error ⟨WorkspaceFiles.widgetPath root file.1, .unreadable⟩
    | .text content =>
      (entryOf parsers (WorkspaceFiles.widgetPath root file.1) content).map (l.insert key)

/-- The library that the entries of the directory of widget files make. -/
def load (root : String) (files : List (String × FileContent)) : Except LoadFault WidgetLibrary :=
  files.foldlM (addFile parsers root) empty

end

end WidgetLibrary

/-- The configuration of a workspace. -/
structure Workspace where
  settings : Settings
  library : WidgetLibrary

namespace Workspace

/-- The configuration of the workspace at a path. -/
def loadWith (parsers : Parsers) (root : String) (files : WorkspaceFiles) :
    Except LoadFault Workspace := do
  let settings ← Settings.load root files.settings
  let library ← WidgetLibrary.load parsers root files.widgets
  return ⟨settings, library⟩

/-- The configuration of the workspace at a path, read by the parsers of this library. -/
def load (root : String) (files : WorkspaceFiles) : Except LoadFault Workspace :=
  loadWith .standard root files

end Workspace

end PipelineEditor
