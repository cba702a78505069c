import PipelineEditor.Workspace.Loading

/-!
# Directories held in memory

A tree of files stands for a directory on disk where nothing is to be read from disk, and a path
is followed in it part by part: an empty part or a dot stays in a directory, two dots go back to
the one around it.

* `FileTree` — a file with its content, or a directory with its entries;
* `FileTree.place` — the tree with one more file, and the directories on the way to it;
* `FileTree.find?` — **what a path leads to**, which may not leave the tree;
* `FileTree.workspaceFiles` — the files of the workspace at a path.
-/

namespace PipelineEditor

/-- A file or a directory. -/
inductive FileTree where
  | file (content : FileContent)
  | directory (entries : List (String × FileTree))

namespace FileTree

/-- The directory without entries. -/
def empty : FileTree := .directory []

/-- The entries of a directory; a file has none. -/
def entries : FileTree → List (String × FileTree)
  | file _ => []
  | directory entries => entries

/-- Whether a tree is a directory. -/
def isDirectory : FileTree → Bool
  | file _ => false
  | directory _ => true

/-- The tree with an entry put in place of an earlier one, or behind all others. -/
def setEntry (t : FileTree) (name : String) (entry : FileTree) : FileTree :=
  if (t.entries.lookup name).isSome then
    .directory (t.entries.map fun e => if e.1 == name then (name, entry) else e)
  else .directory (t.entries ++ [(name, entry)])

/-- The tree with a file or a directory at the end of a path.  A directory that is there already
keeps its entries. -/
def place : FileTree → List String → FileTree → FileTree
  | t, [], leaf => if leaf.isDirectory && t.isDirectory then t else leaf
  | t, name :: path, leaf =>
    t.setEntry name (place ((t.entries.lookup name).getD empty) path leaf)

/-- Follows the parts of a path from a place in the tree; `above` holds the directories around
it. -/
def follow? : List String → List FileTree → FileTree → Option FileTree
  | [], _, here => some here
  | part :: path, above, here =>
    if !here.isDirectory then none
    else if part.isEmpty || part == "." then follow? path above here
    else if part == ".." then
      match above with
      | outer :: above => follow? path above outer
      | [] => none
    else
      match here.entries.lookup part with
      | some inner => follow? path (here :: above) inner
      | none => none

/-- What a path leads to. -/
def find? (t : FileTree) (path : String) : Option FileTree :=
  if path.startsWith "/" then none else follow? (Path.parts path) [] t

/-- What is found where a file may be. -/
def content : FileTree → FileContent
  | file content => content
  | directory _ => .unreadable

/-- What is found at a path where a file may be. -/
def contentAt? (t : FileTree) (path : String) : Option FileContent := (t.find? path).map content

/-- The files of the workspace at a path. -/
def workspaceFiles (t : FileTree) (root : String) : WorkspaceFiles where
  settings := t.contentAt? (WorkspaceFiles.settingsPath root)
  widgets :=
    ((t.find? (WorkspaceFiles.widgetDirectory root)).getD empty).entries.map fun e =>
      (e.1, e.2.content)

end FileTree

end PipelineEditor
