import PipelineEditor.Json.Number

/-!
# JSON values

The values that configurations and schemas hold without looking into them: widget attributes,
declared field types, default values.  The members of an object keep the order in which they
were given.

* `Json` — null, truth values, numbers, texts, arrays and objects;
* `Json.get?` — a member of an object.
-/

namespace PipelineEditor

/-- A JSON value. -/
inductive Json where
  | null
  | bool (value : Bool)
  | number (value : Number)
  | string (text : String)
  | array (elements : List Json)
  | object (members : List (String × Json))

namespace Json

instance : Inhabited Json := ⟨null⟩

/-- A member of an object, if the value is an object that has it. -/
def get? : Json → String → Option Json
  | object members, name => members.lookup name
  | _, _ => none

/-- The text of a value that is a text. -/
def asString? : Json → Option String
  | string s => some s
  | _ => none

end Json

end PipelineEditor
