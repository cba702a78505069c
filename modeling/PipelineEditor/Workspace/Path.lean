/-!
# Paths

A path is a text whose parts are separated by slashes.  A plugin's configuration is found by the
name of its file, so the name is taken apart: what follows the last dot is the extension, and
what comes before it is the stem.

* `Path.join` — the path of an entry of a directory;
* `Path.stem?`, `Path.extension?` — **the two halves of a file's name**; a name without a dot, or
  with its only dot in front, has no extension.
-/

namespace PipelineEditor

namespace Path

/-- The path of an entry of a directory. -/
def join (directory name : String) : String :=
  if directory.isEmpty then name
  else if directory.endsWith "/" then directory ++ name
  else directory ++ "/" ++ name

/-- The parts between the slashes. -/
def parts (path : String) : List String := (path.toList.splitOn '/').map String.ofList

/-- The name of the file that a path leads to; there is none where the path ends by going up. -/
def fileName? (path : String) : Option String :=
  match (parts path).reverse.dropWhile fun part => part.isEmpty || part == "." with
  | [] => none
  | name :: _ => if name == ".." then none else some name

/-- Splits a name at its last dot, unless that is its first character. -/
def splitName (name : String) : String × Option String :=
  let cs := name.toList.reverse
  match cs.dropWhile (· != '.') with
  | _ :: before@(_ :: _) =>
    (String.ofList before.reverse, some (String.ofList (cs.takeWhile (· != '.')).reverse))
  | _ => (name, none)

/-- The stem of the file that a path leads to. -/
def stem? (path : String) : Option String := (fileName? path).map fun name => (splitName name).1

/-- The extension of the file that a path leads to. -/
def extension? (path : String) : Option String :=
  (fileName? path).bind fun name => (splitName name).2

end Path

end PipelineEditor
