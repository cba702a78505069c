import PipelineEditor.Text.Blank
import PipelineEditor.Source.Record

/-!
# Column types

The schema editor knows two kinds of column type: a scalar type, which is just a name, and a map
from a key type to a value type.  Both are chosen from a list of names, and a name is read as a
map type exactly when it has the form `map<k,v>` once surrounding blanks are removed.  Every
other name is a scalar type and is kept as it was given, blanks included.

* `ColumnType` — the two kinds;
* `ColumnType.ofName` — the reading of a name;
* `ColumnType.name` — the name under which a type is shown and written.
-/

namespace PipelineEditor

/-- The type of a column. -/
inductive ColumnType where
  | scalar (name : String)
  | map (keys values : String)
  deriving DecidableEq, Repr

namespace ColumnType

/-- The map type from texts to texts, the only one that schemas are reduced to. -/
def textMap : ColumnType := .map "string" "string"

/-- What follows `map<`, if the characters start with it. -/
def afterMapMark? : List Char → Option (List Char)
  | 'm' :: 'a' :: 'p' :: '<' :: rest => some rest
  | _ => none

/-- What stands before a final `>`, if the characters end with it. -/
def beforeFinalAngle? (cs : List Char) : Option (List Char) :=
  match cs.reverse with
  | '>' :: rest => some rest.reverse
  | _ => none

/-- The characters before the first comma and after it, if there is a comma. -/
def splitAtComma? (cs : List Char) : Option (List Char × List Char) :=
  match cs.dropWhile (· ≠ ',') with
  | _ :: after => some (cs.takeWhile (· ≠ ','), after)
  | [] => none

/-- The two arguments of a name of the form `map<k,v>`, blanks not removed. -/
def mapArguments? (name : String) : Option (List Char × List Char) := do
  let rest ← afterMapMark? (Text.trimChars name.toList)
  let arguments ← beforeFinalAngle? rest
  splitAtComma? arguments

/-- The type that a name stands for. -/
def ofName (name : String) : ColumnType :=
  match mapArguments? name with
  | some (keys, values) =>
    .map (String.ofList (Text.trimChars keys)) (String.ofList (Text.trimChars values))
  | none => .scalar name

/-- The name under which a type is shown. -/
def name : ColumnType → String
  | scalar name => name
  | map keys values => "map<" ++ keys ++ ", " ++ values ++ ">"

instance : Wire ColumnType where
  read? s := (read? s : Option String).map ofName
  write t := .string t.name

end ColumnType

end PipelineEditor
