import PipelineEditor.Source.Basic
import PipelineEditor.Map.Sorted

/-!
# Records in source trees

Every typed reading is put together from a few rules, and each rule is stated once here.  A
plain record is an object whose members are known by name, or an array of their values in the
order of declaration.  Unknown members are passed over without a look at their values; a known
member that comes twice is an error.  An open record keeps the members it does not know, so it
is an object only, and everything it keeps must be readable.

* `Record` — the members that were given, under their declared names;
* `Source.record?`, `Source.objectRecord?`, `Source.openRecord?` — the three ways to find them;
* `Record.required?`, `Record.withDefault?`, `Record.optional?` — what a missing member means;
* `Wire` — **a type with one written form and a reading**, with instances for texts, truth
  values, lists and the two kinds of map.
-/

namespace PipelineEditor

/-- A type with a reading from source trees and a JSON form in which it is written. -/
class Wire (α : Type) where
  read? : Source → Option α
  write : α → Json

export Wire (read? write)

/-- The members of a record that were given. -/
structure Record where
  members : List (String × Source)

namespace Record

/-- The value of a member, if it was given. -/
def get? (r : Record) (name : String) : Option Source := r.members.lookup name

/-- A member that must be given. -/
def required? {α : Type} [Wire α] (r : Record) (name : String) : Option α :=
  match r.get? name with
  | some s => read? s
  | none => none

/-- A member with a value to take when it is not given. -/
def withDefault? {α : Type} [Wire α] (r : Record) (name : String) (default : α) : Option α :=
  match r.get? name with
  | some s => read? s
  | none => some default

/-- A member that may be missing or null. -/
def optional? {α : Type} [Wire α] (r : Record) (name : String) : Option (Option α) :=
  match r.get? name with
  | some .null => some none
  | some s => (read? s).map some
  | none => some none

end Record

namespace Source

/-! ## Finding the members -/

/-- The declared name that a member's name stands for: `some none` when it stands for none. -/
def declaredName? (names : List String) : MemberName → Option (Option String)
  | .text name => some (if name ∈ names then some name else none)
  | .index n => some names[n]?
  | .other => none
  | .unreadable => none

/-- The declared members of an object, each at most once. -/
def knownMembers? (names : List String) :
    List (MemberName × Source) → Option (List (String × Source))
  | [] => some []
  | (key, s) :: rest =>
    match declaredName? names key, knownMembers? names rest with
    | some none, some known => some known
    | some (some name), some known =>
      if name ∈ known.map Prod.fst then none else some ((name, s) :: known)
    | _, _ => none

/-- The members of a plain record given as an object. -/
def objectRecord? (names : List String) : Source → Option Record
  | object members => (knownMembers? names members).map Record.mk
  | _ => none

/-- The members of a plain record given as an object, or as an array in declaration order that
may stop early. -/
def record? (names : List String) : Source → Option Record
  | array elements =>
    if elements.length ≤ names.length then some ⟨names.zip elements⟩ else none
  | s => objectRecord? names s

/-- Splits the members of an object into the declared ones and the others, all of them with
texts for names; the others must be readable. -/
def splitMembers? (names : List String) :
    List (MemberName × Source) → Option (List (String × Source) × List (String × Source))
  | [] => some ([], [])
  | (.text name, s) :: rest =>
    match splitMembers? names rest with
    | none => none
    | some (known, others) =>
      if name ∈ names then
        if name ∈ known.map Prod.fst then none else some ((name, s) :: known, others)
      else if s.readable then some (known, (name, s) :: others)
      else none
  | _ :: _ => none

/-- The declared members of an open record, and all its other members in order. -/
def openRecord? (names : List String) : Source → Option (Record × List (String × Source))
  | object members => (splitMembers? names members).map fun r => (⟨r.1⟩, r.2)
  | _ => none

/-- The members of an object whose names are all texts. -/
def namedMembers? : List (MemberName × Source) → Option (List (String × Source))
  | [] => some []
  | (.text name, s) :: rest => (namedMembers? rest).map ((name, s) :: ·)
  | _ :: _ => none

end Source

/-! ## Texts, truth values, lists and maps -/

namespace Wire

variable {α : Type}

/-- Reads every element. -/
def readAll? [Wire α] : List Source → Option (List α)
  | [] => some []
  | s :: rest =>
    match read? s, readAll? rest with
    | some a, some as => some (a :: as)
    | _, _ => none

/-- Reads the value of every member. -/
def readValues? [Wire α] : List (String × Source) → Option (List (String × α))
  | [] => some []
  | (name, s) :: rest =>
    match read? s, readValues? rest with
    | some a, some as => some ((name, a) :: as)
    | _, _ => none

/-- Reads the members of a map. -/
def readMap? [Wire α] : Source → Option (List (String × α))
  | .object members => (Source.namedMembers? members).bind readValues?
  | _ => none

/-- Writes the entries of a map. -/
def writeMap [Wire α] (entries : List (String × α)) : Json :=
  .object (entries.map fun e => (e.1, write e.2))

instance : Wire String where
  read?
    | .string s => some s
    | _ => none
  write := .string

instance : Wire Bool where
  read?
    | .bool b => some b
    | _ => none
  write := .bool

instance : Wire Json where
  read? := Source.toJson?
  write := id

instance [Wire α] : Wire (List α) where
  read?
    | .array elements => readAll? elements
    | _ => none
  write as := .array (as.map write)

instance [Wire α] : Wire (SortedMap α) where
  read? s := (readMap? s).map SortedMap.ofList
  write m := writeMap m.entries

instance [Wire α] : Wire (OrderedMap α) where
  read? s := (readMap? s).map OrderedMap.ofList
  write m := writeMap m.entries

end Wire

/-! ## Writing members -/

namespace Json

variable {α : Type} [Wire α]

/-- A member that is always written. -/
def member (name : String) (value : α) : List (String × Json) := [(name, write value)]

/-- A member that is written as null when it has no value. -/
def memberOrNull (name : String) (value : Option α) : List (String × Json) :=
  [(name, match value with | some a => write a | none => null)]

/-- A member that is written when it has a value. -/
def memberIfSome (name : String) (value : Option α) : List (String × Json) :=
  match value with
  | some a => [(name, write a)]
  | none => []

/-- A map that is written when it has entries. -/
def memberIfNonempty (name : String) (value : SortedMap α) : List (String × Json) :=
  if value.isEmpty then [] else [(name, write value)]

end Json

end PipelineEditor
