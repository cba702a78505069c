import PipelineEditor.Json.Basic
import PipelineEditor.Map.Ordered

/-!
# Source trees: what a text says before it is given a type

A JSON text, a YAML text or a TOML text is first taken apart into a tree that keeps everything a
typed reading may still object to: repeated members, and places that are well formed but have no
value — a number beyond every range, half of a surrogate pair, a container nested too deeply.
Such a place does no harm in a member that nobody looks at; it is an error wherever its value is
asked for.

* `Source` — the tree, with `unreadable` for a place without a value;
* `Source.readable` — whether no such place occurs in a tree;
* `Source.toJson?` — **the JSON value of a tree**: a repeated member keeps its first place and
  its last value;
* `Json.toSource` — a JSON value seen as a tree.
-/

namespace PipelineEditor

/-- The name of a member.  Only YAML has names that are not texts: a natural number counts as
the position of a member where a record is read from a buffered tree, and nothing else does. -/
inductive MemberName where
  | text (name : String)
  | index (n : Nat)
  | other
  | unreadable
  deriving DecidableEq

/-- What a text says. -/
inductive Source where
  | null
  | bool (value : Bool)
  | number (value : Number)
  /-- A number that is infinite or not a number; as a JSON value it is null. -/
  | notFinite
  | string (text : String)
  | array (elements : List Source)
  | object (members : List (MemberName × Source))
  /-- A place that is well formed but has no value. -/
  | unreadable

namespace Source

instance : Inhabited Source := ⟨null⟩

mutual
/-- Whether every place of a tree has a value. -/
def readable : Source → Bool
  | array elements => allReadable elements
  | object members => membersReadable members
  | unreadable => false
  | _ => true

/-- Whether every element is readable. -/
def allReadable : List Source → Bool
  | [] => true
  | s :: rest => s.readable && allReadable rest

/-- Whether every member has a readable name and a readable value. -/
def membersReadable : List (MemberName × Source) → Bool
  | [] => true
  | (name, s) :: rest => name ≠ .unreadable && s.readable && membersReadable rest
end

mutual
/-- The JSON value of a tree, if every place has one and every member's name is a text. -/
def toJson? : Source → Option Json
  | null => some .null
  | bool b => some (.bool b)
  | number n => some (.number n)
  | notFinite => some .null
  | string s => some (.string s)
  | array elements => (allToJson? elements).map .array
  | object members => (membersToJson? members).map fun ms => .object (OrderedMap.insertAll ms [])
  | unreadable => none

/-- The JSON values of the elements. -/
def allToJson? : List Source → Option (List Json)
  | [] => some []
  | s :: rest =>
    match s.toJson?, allToJson? rest with
    | some j, some js => some (j :: js)
    | _, _ => none

/-- The names and JSON values of the members. -/
def membersToJson? : List (MemberName × Source) → Option (List (String × Json))
  | [] => some []
  | (.text name, s) :: rest =>
    match s.toJson?, membersToJson? rest with
    | some j, some js => some ((name, j) :: js)
    | _, _ => none
  | _ :: _ => none
end

end Source

namespace Json

mutual
/-- A JSON value as a tree. -/
def toSource : Json → Source
  | null => .null
  | bool b => .bool b
  | number n => .number n
  | string s => .string s
  | array elements => .array (allToSource elements)
  | object members => .object (membersToSource members)

/-- The elements as trees. -/
def allToSource : List Json → List Source
  | [] => []
  | j :: rest => j.toSource :: allToSource rest

/-- The members as trees. -/
def membersToSource : List (String × Json) → List (MemberName × Source)
  | [] => []
  | (name, j) :: rest => (.text name, j.toSource) :: membersToSource rest
end

mutual
/-- Every place of a JSON value has a value. -/
theorem readable_toSource : ∀ j : Json, j.toSource.readable = true
  | null => rfl
  | bool _ => rfl
  | number _ => rfl
  | string _ => rfl
  | array elements => by
    simp only [toSource, Source.readable]
    exact allReadable_allToSource elements
  | object members => by
    simp only [toSource, Source.readable]
    exact membersReadable_membersToSource members

theorem allReadable_allToSource :
    ∀ elements : List Json, Source.allReadable (allToSource elements) = true
  | [] => rfl
  | j :: rest => by
    simp only [allToSource, Source.allReadable, readable_toSource j,
      allReadable_allToSource rest, Bool.and_self]

theorem membersReadable_membersToSource :
    ∀ members : List (String × Json),
      Source.membersReadable (membersToSource members) = true
  | [] => rfl
  | (name, j) :: rest => by
    simp [membersToSource, Source.membersReadable, readable_toSource j,
      membersReadable_membersToSource rest]
end

end Json

end PipelineEditor
