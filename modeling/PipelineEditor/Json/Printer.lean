import PipelineEditor.Json.Quoted
import PipelineEditor.Source.Basic

/-!
# Writing JSON texts

Values are written in two forms.  The compact form has no space at all; the spread form puts
every element and member on a line of its own, two spaces further in than the line that opens
its container, and writes empty containers as `[]` and an empty pair of braces.

* `Json.compact` — **the compact text of a value**;
* `Json.spread` — the text over several lines.
-/

namespace PipelineEditor.Json

/-! ## The compact form -/

mutual
/-- The characters of the compact form. -/
def compactChars : Json → List Char
  | null => ['n', 'u', 'l', 'l']
  | bool true => ['t', 'r', 'u', 'e']
  | bool false => ['f', 'a', 'l', 's', 'e']
  | number n => n.text
  | string s => quote s.toList
  | array [] => ['[', ']']
  | array (j :: rest) => '[' :: compactChars j ++ moreElements rest
  | object [] => ['{', '}']
  | object ((name, j) :: rest) =>
    '{' :: quote name.toList ++ ':' :: compactChars j ++ moreMembers rest

/-- The elements after the first, each behind a comma, and the closing bracket. -/
def moreElements : List Json → List Char
  | [] => [']']
  | j :: rest => ',' :: compactChars j ++ moreElements rest

/-- The members after the first, each behind a comma, and the closing brace. -/
def moreMembers : List (String × Json) → List Char
  | [] => ['}']
  | (name, j) :: rest =>
    ',' :: quote name.toList ++ ':' :: compactChars j ++ moreMembers rest
end

/-- The compact text of a value. -/
def compact (j : Json) : String := String.ofList j.compactChars

/-! ## The spread form -/

/-- The start of a line `depth` levels in. -/
def newLine (depth : Nat) : List Char := '\n' :: List.replicate (2 * depth) ' '

mutual
/-- The characters of the spread form of a value that stands `depth` levels in. -/
def spreadChars : Nat → Json → List Char
  | _, array [] => ['[', ']']
  | depth, array (j :: rest) =>
    '[' :: newLine (depth + 1) ++ spreadChars (depth + 1) j ++ spreadElements depth rest
  | _, object [] => ['{', '}']
  | depth, object ((name, j) :: rest) =>
    '{' :: newLine (depth + 1) ++ quote name.toList ++ ':' :: ' ' :: spreadChars (depth + 1) j
      ++ spreadMembers depth rest
  | _, null => ['n', 'u', 'l', 'l']
  | _, bool true => ['t', 'r', 'u', 'e']
  | _, bool false => ['f', 'a', 'l', 's', 'e']
  | _, number n => n.text
  | _, string s => quote s.toList

/-- The elements after the first and the closing bracket of an array at `depth`. -/
def spreadElements : Nat → List Json → List Char
  | depth, [] => newLine depth ++ [']']
  | depth, j :: rest =>
    ',' :: newLine (depth + 1) ++ spreadChars (depth + 1) j ++ spreadElements depth rest

/-- The members after the first and the closing brace of an object at `depth`. -/
def spreadMembers : Nat → List (String × Json) → List Char
  | depth, [] => newLine depth ++ ['}']
  | depth, (name, j) :: rest =>
    ',' :: newLine (depth + 1) ++ quote name.toList ++ ':' :: ' ' :: spreadChars (depth + 1) j
      ++ spreadMembers depth rest
end

/-- The text of a value over several lines. -/
def spread (j : Json) : String := String.ofList (spreadChars 0 j)

end PipelineEditor.Json
