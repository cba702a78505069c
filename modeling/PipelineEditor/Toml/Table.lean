import PipelineEditor.Source.Basic

/-!
# Tables

A TOML document may write a table in several places, and the rules about that look at how a table
came to be.  A table with a header of its own, or with braces around it, is complete and takes no
more members from elsewhere.  A table that a header only passes through may still get a header
later.  A table that a dotted key passes through grows with every such key.

* `Origin` — how a table came to be;
* `Entry` — what stands under a key while a document is read;
* `Table.within?` — **the way along a path, which makes the tables that are missing**;
* `Table.put?`, `Table.open?`, `Table.append?` — a key with its value, a header, and a header of
  one of several tables with the same name.
-/

namespace PipelineEditor.Toml

/-- How a table came to be. -/
inductive Origin where
  /-- The table has a header or braces of its own. -/
  | written
  /-- The header of a table inside it passes through. -/
  | implied
  /-- A dotted key passes through. -/
  | dotted
  deriving DecidableEq, Repr

/-- What stands under a key. -/
inductive Entry where
  | value (source : Source)
  | table (origin : Origin) (members : List (String × Entry))
  /-- Tables with one name, the latest first. -/
  | tables (latest : List (String × Entry)) (earlier : List (List (String × Entry)))

/-- The members of a table while a document is read. -/
abbrev Table : Type := List (String × Entry)

namespace Entry

mutual
/-- What an entry says. -/
def toSource : Entry → Source
  | value s => s
  | table _ members => .object (membersToSource members)
  | tables latest earlier =>
    .array (allToSource earlier ++ [.object (membersToSource latest)])

/-- What the members of a table say. -/
def membersToSource : List (String × Entry) → List (MemberName × Source)
  | [] => []
  | (name, e) :: rest => (.text name, e.toSource) :: membersToSource rest

/-- What tables with one name say, in the order of the document. -/
def allToSource : List (List (String × Entry)) → List Source
  | [] => []
  | members :: rest => allToSource rest ++ [.object (membersToSource members)]
end

end Entry

namespace Table

/-- The table with another entry under a key that it has. -/
def replace (t : Table) (key : String) (e : Entry) : Table :=
  t.map fun m => if m.1 == key then (key, e) else m

/-- Changes the table at the end of a path, given how it came to be.  Missing tables on the way
get the given origin; a dotted key may not pass through a complete table. -/
def within? (fresh : Origin) (change : Origin → Table → Option Table) :
    List String → Origin → Table → Option Table
  | [], origin, t => change origin t
  | key :: path, _, t =>
    match t.lookup key with
    | none => (within? fresh change path fresh []).map fun inner => t ++ [(key, .table fresh inner)]
    | some (.table origin inner) =>
      if fresh = .dotted ∧ origin = .written then none
      else
        (within? fresh change path origin inner).map fun inner =>
          t.replace key (.table origin inner)
    | some (.tables latest earlier) =>
      (within? fresh change path .written latest).map fun latest =>
        t.replace key (.tables latest earlier)
    | some (.value _) => none

/-- Puts a value under a key that a table does not have yet. -/
def insert? (t : Table) (key : String) (source : Source) : Option Table :=
  match t.lookup key with
  | some _ => none
  | none => some (t ++ [(key, .value source)])

/-- Puts a value under a key with a path in front of it.  A table with that path must be one that
dotted keys have made. -/
def put? (t : Table) (path : List String) (key : String) (source : Source) : Option Table :=
  if path.isEmpty then t.insert? key source
  else
    within? .dotted
      (fun origin inner => if origin = .dotted then inner.insert? key source else none)
      path .written t

/-- Opens the table that a header names. -/
def open? (t : Table) (path : List String) (key : String) : Option Table :=
  within? .implied
    (fun _ parent =>
      match parent.lookup key with
      | none => some (parent ++ [(key, .table .written [])])
      | some (.table .implied inner) => some (parent.replace key (.table .written inner))
      | some _ => none)
    path .written t

/-- Opens one more of the tables that a header names. -/
def append? (t : Table) (path : List String) (key : String) : Option Table :=
  within? .implied
    (fun _ parent =>
      match parent.lookup key with
      | none => some (parent ++ [(key, .tables [] [])])
      | some (.tables latest earlier) =>
        some (parent.replace key (.tables [] (latest :: earlier)))
      | some _ => none)
    path .written t

/-- Puts a value into the table that a header has opened. -/
def putUnder? (t : Table) (header path : List String) (key : String) (source : Source) :
    Option Table :=
  within? .implied (fun _ inner => put? inner path key source) header .written t

/-- What a table says. -/
def toSource (t : Table) : Source := .object (Entry.membersToSource t)

end Table

end PipelineEditor.Toml
