import PipelineEditor.Json.Quoted
import PipelineEditor.Source.Basic

/-!
# Reading JSON texts

The reader accepts exactly the JSON grammar: no comments, no trailing commas, no byte order
mark, nothing after the value.  It answers with a source tree, so that what is well formed
without having a value — a lone surrogate, a number that overflows, a container inside 127
others — is refused only by whoever asks for it.

* `Json.Parser.value?` — a value and what follows it;
* `Source.parse?` — **the tree of a whole text**;
* `Json.parse?` — the JSON value of a whole text.
-/

namespace PipelineEditor.Json.Parser

/-- The characters that may stand between the parts of a text. -/
def isSpace (c : Char) : Bool := c == ' ' || c == '\t' || c == '\n' || c == '\r'

/-- What is left after the space in front. -/
def skipSpace (cs : List Char) : List Char := cs.dropWhile isSpace

/-- The number of containers that may stand inside one another. -/
def depthLimit : Nat := 127

/-- A container that stands inside `depth` others. -/
def nest (depth : Nat) (s : Source) : Source := if depth < depthLimit then s else .unreadable

/-- The tree of a quoted text. -/
def textSource (units : List QuotedUnit) : Source :=
  match decode? units with
  | some cs => .string (String.ofList cs)
  | none => .unreadable

/-- The member name that a quoted text gives. -/
def memberName (units : List QuotedUnit) : MemberName :=
  match decode? units with
  | some cs => .text (String.ofList cs)
  | none => .unreadable

/-- Reads a literal name or a numeral. -/
def scalar? : List Char → Option (Source × List Char)
  | 'n' :: 'u' :: 'l' :: 'l' :: rest => some (.null, rest)
  | 't' :: 'r' :: 'u' :: 'e' :: rest => some (.bool true, rest)
  | 'f' :: 'a' :: 'l' :: 's' :: 'e' :: rest => some (.bool false, rest)
  | cs =>
    (Numeral.scan? (cs.takeWhile Numeral.isNumeralChar)).map fun n =>
      (match n.value? with
        | some v => .number v
        | none => .unreadable, cs.dropWhile Numeral.isNumeralChar)

mutual
/-- Reads a value that stands inside `depth` containers. -/
def value? : Nat → Nat → List Char → Option (Source × List Char)
  | 0, _, _ => none
  | fuel + 1, depth, cs =>
    match skipSpace cs with
    | '{' :: rest =>
      match skipSpace rest with
      | '}' :: rest => some (nest depth (.object []), rest)
      | rest => (members? fuel (depth + 1) rest).map fun r => (nest depth (.object r.1), r.2)
    | '[' :: rest =>
      match skipSpace rest with
      | ']' :: rest => some (nest depth (.array []), rest)
      | rest => (elements? fuel (depth + 1) rest).map fun r => (nest depth (.array r.1), r.2)
    | '"' :: rest => (scan? rest).map fun r => (textSource r.1, r.2)
    | rest => scalar? rest

/-- Reads the elements of an array up to its closing bracket. -/
def elements? : Nat → Nat → List Char → Option (List Source × List Char)
  | 0, _, _ => none
  | fuel + 1, depth, cs =>
    match value? fuel depth cs with
    | none => none
    | some (s, rest) =>
      match skipSpace rest with
      | ',' :: rest => (elements? fuel depth rest).map fun r => (s :: r.1, r.2)
      | ']' :: rest => some ([s], rest)
      | _ => none

/-- Reads the members of an object up to its closing brace. -/
def members? : Nat → Nat → List Char → Option (List (MemberName × Source) × List Char)
  | 0, _, _ => none
  | fuel + 1, depth, cs =>
    match skipSpace cs with
    | '"' :: rest =>
      match scan? rest with
      | none => none
      | some (units, rest) =>
        match skipSpace rest with
        | ':' :: rest =>
          match value? fuel depth rest with
          | none => none
          | some (s, rest) =>
            match skipSpace rest with
            | ',' :: rest =>
              (members? fuel depth rest).map fun r => ((memberName units, s) :: r.1, r.2)
            | '}' :: rest => some ([(memberName units, s)], rest)
            | _ => none
        | _ => none
    | _ => none
end

/-- The tree of a whole text.  Every two nested calls consume a character, so twice the length
of the text bounds the depth of the calls. -/
def document? (cs : List Char) : Option Source :=
  match value? (2 * cs.length + 2) 0 cs with
  | some (s, rest) => if skipSpace rest = [] then some s else none
  | none => none

end PipelineEditor.Json.Parser

namespace PipelineEditor

/-- The source tree of a JSON text. -/
def Source.parse? (text : String) : Option Source := Json.Parser.document? text.toList

/-- The JSON value of a JSON text. -/
def Json.parse? (text : String) : Option Json := (Source.parse? text).bind Source.toJson?

end PipelineEditor
