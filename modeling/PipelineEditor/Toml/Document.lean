import PipelineEditor.Toml.Value

/-!
# TOML documents

A document is a row of statements, each on a line of its own: a key with its value, or the header
of a table.  A header says where the keys after it belong.

* `Statement.scan?` — a statement at the beginning of a line;
* `Table.obey?` — **what a statement adds to the tables**;
* `Toml.parse?` — the source tree of a document.
-/

namespace PipelineEditor.Toml

/-- A statement. -/
inductive Statement where
  | pair (path : List String) (key : String) (value : Source)
  | header (path : List String) (key : String)
  | listHeader (path : List String) (key : String)

namespace Statement

/-- Reads a statement and the end of its line. -/
def scan? (cs : List Char) : Option (Statement × List Char) :=
  match cs with
  | '[' :: '[' :: rest =>
    match scanPath? rest with
    | some ((path, key), ']' :: ']' :: rest) =>
      (endLine? rest).map fun rest => (.listHeader path key, rest)
    | _ => none
  | '[' :: rest =>
    match scanPath? rest with
    | some ((path, key), ']' :: rest) => (endLine? rest).map fun rest => (.header path key, rest)
    | _ => none
  | _ =>
    match scanPath? cs with
    | some ((path, key), '=' :: rest) =>
      match scanValue? (skipBlanks rest) with
      | some (s, rest) => (endLine? rest).map fun rest => (.pair path key s, rest)
      | none => none
    | _ => none

/-- Reads all statements of a document. -/
def scanAll? : Nat → List Char → Option (List Statement)
  | 0, _ => none
  | fuel + 1, cs =>
    match skipBlanks cs with
    | [] => some []
    | cs =>
      match endLine? cs with
      | some rest => scanAll? fuel rest
      | none =>
        match scan? cs with
        | some (s, rest) => (scanAll? fuel rest).map (s :: ·)
        | none => none

end Statement

/-- What a statement adds to the tables of a document, given the header that is in force. -/
def Table.obey? (header : List String) (t : Table) : Statement → Option (List String × Table)
  | .pair path key s => (t.putUnder? header path key s).map fun t => (header, t)
  | .header path key => (t.open? path key).map fun t => (path ++ [key], t)
  | .listHeader path key => (t.append? path key).map fun t => (path ++ [key], t)

/-- The tables that statements make together. -/
def Table.ofStatements? (statements : List Statement) : Option Table :=
  (statements.foldlM (fun (header, t) statement => Table.obey? header t statement)
    (([], []) : List String × Table)).map Prod.snd

/-- The characters of a document without the byte order mark in front. -/
def withoutMark : List Char → List Char
  | c :: rest => if c.toNat = 0xFEFF then rest else c :: rest
  | [] => []

/-- The source tree of a document. -/
def parse? (text : String) : Option Source :=
  let cs := withoutMark text.toList
  ((Statement.scanAll? (cs.length + 1) cs).bind Table.ofStatements?).map Table.toSource

end PipelineEditor.Toml
