import PipelineEditor.Column.Type
import PipelineEditor.Json.Printer

/-!
# Shapes of field types in stored schemas

A stored schema spells the type of a field in one of four shapes: a name, a union whose first
member is the type proper, a map object, or another object that carries the type of its items.
The editor shows the type at the end of the path that leads from a union to its first member and
from a nested object to its items; on the way a union makes the column nullable.

* `TypeShape` — the four shapes, `TypeFault` — the three ways to have none of them;
* `TypeShape.ofJson` — **the shape that a JSON value spells, or the fault at the end of its
  path**;
* `TypeShape.reduce` — the column type at the end of the path and the nullable flag.
-/

namespace PipelineEditor

/-- A field type as a stored schema spells it. -/
inductive TypeShape where
  | scalar (name : String)
  | union (first : TypeShape)
  | map (keys values : String)
  | arrayOf (items : TypeShape)
  deriving DecidableEq, Repr

/-- Why a JSON value spells no field type. -/
inductive TypeFault where
  | emptyUnion
  | missingItems (value : Json)
  | unsupported (value : Json)

/-- The explanation of a fault. -/
def TypeFault.message : TypeFault → String
  | emptyUnion => "union type has no members"
  | missingItems value => "nested type has no `items` member: " ++ value.compact
  | unsupported value => "unsupported field type: " ++ value.compact

namespace TypeShape

/-- The name that a member of a map object gives, `string` if it gives none. -/
def memberName (members : List (String × Json)) (name : String) : String :=
  ((members.lookup name).bind Json.asString?).getD "string"

/-- Whether the members are those of a map object. -/
def isMapObject (members : List (String × Json)) : Bool :=
  (members.lookup "type").bind Json.asString? == some "map"

mutual
/-- The shape that a value spells. -/
def ofJson : Json → Except TypeFault TypeShape
  | .string name => .ok (.scalar name)
  | .array [] => .error .emptyUnion
  | .array (first :: _) => (ofJson first).map .union
  | .object members =>
    if isMapObject members then
      .ok (.map (memberName members "keys") (memberName members "values"))
    else
      match ofItems? members with
      | some shape => shape.map .arrayOf
      | none => .error (.missingItems (.object members))
  | .null => .error (.unsupported .null)
  | .bool b => .error (.unsupported (.bool b))
  | .number n => .error (.unsupported (.number n))

/-- The shape that the member `items` spells, if there is such a member. -/
def ofItems? : List (String × Json) → Option (Except TypeFault TypeShape)
  | [] => none
  | (name, j) :: rest => if name = "items" then some (ofJson j) else ofItems? rest
end

/-- The column type at the end of the path, and whether the column is nullable. -/
def reduce (nullable : Bool) : TypeShape → ColumnType × Bool
  | scalar name => (ColumnType.ofName name, nullable)
  | union first => ((first.reduce nullable).1, true)
  | map _ _ => (ColumnType.textMap, nullable)
  | arrayOf items => items.reduce nullable

end TypeShape

end PipelineEditor
