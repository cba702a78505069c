/-!
# Places in a YAML text

The meaning of a YAML text depends on lines and columns, so a place in it is the text that
remains together with the line, the column and the number of characters passed.

* `Cursor` — a place; `Cursor.advance` and `Cursor.takeBreak?` — **the two ways on**, within a
  line and to the next one;
* `isBreak`, `isBlank`, `isNameChar`, `isAdmissible` — the characters that end a line, that
  separate words, that names are made of, and that may occur at all.
-/

namespace PipelineEditor.Yaml

/-- Whether a character ends a line. -/
def isBreak (c : Char) : Bool :=
  c == '\n' || c == '\r' || c.toNat == 0x85 || c.toNat == 0x2028 || c.toNat == 0x2029

/-- Whether a character separates words within a line. -/
def isBlank (c : Char) : Bool := c == ' ' || c == '\t'

/-- The characters that names of anchors, tags and directives are made of. -/
def isNameChar (c : Char) : Bool := c.isAlphanum || c == '_' || c == '-'

/-- The mark that may begin a text. -/
def isByteOrderMark (c : Char) : Bool := c.toNat == 0xFEFF

/-- Whether a character may occur in a text. -/
def isAdmissible (c : Char) : Bool :=
  let n := c.toNat
  n == 0x9 || n == 0xA || n == 0xD || (0x20 ≤ n && n ≤ 0x7E) || n == 0x85
    || (0xA0 ≤ n && n ≤ 0xD7FF) || (0xE000 ≤ n && n ≤ 0xFFFD) || 0x10000 ≤ n

/-- Whether a word ends before a character, or at the end of the text. -/
def endsWord : Option Char → Bool
  | some c => isBlank c || isBreak c
  | none => true

/-- Whether a line ends before a character, or at the end of the text. -/
def endsLine : Option Char → Bool
  | some c => isBreak c
  | none => true

/-- A place in a text. -/
structure Cursor where
  rest : List Char
  line : Nat
  column : Nat
  index : Nat
  deriving Repr

namespace Cursor

/-- The beginning of a text. -/
def start (cs : List Char) : Cursor := ⟨cs, 0, 0, 0⟩

/-- The next character. -/
def next? (c : Cursor) : Option Char := c.rest.head?

/-- The character after `n` others. -/
def peek? (c : Cursor) (n : Nat) : Option Char := c.rest[n]?

/-- The place `n` characters on, within the line. -/
def advance (c : Cursor) (n : Nat) : Cursor :=
  ⟨c.rest.drop n, c.line, c.column + n, c.index + n⟩

/-- The place where only a part of the text that remained is left, within the line. -/
def advanceTo (c : Cursor) (rest : List Char) : Cursor := c.advance (c.rest.length - rest.length)

/-- The start of the next line and the break before it, if the line ends here.  The usual breaks
all count as a line feed. -/
def takeBreak? (c : Cursor) : Option (List Char × Cursor) :=
  match c.rest with
  | '\r' :: '\n' :: rest => some (['\n'], ⟨rest, c.line + 1, 0, c.index + 2⟩)
  | d :: rest =>
    if isBreak d then
      let written := if d.toNat == 0x2028 || d.toNat == 0x2029 then [d] else ['\n']
      some (written, ⟨rest, c.line + 1, 0, c.index + 1⟩)
    else none
  | [] => none

/-- Whether a line of three equal marks stands here, followed by the end of a word. -/
def atMarks (c : Cursor) (mark : Char) : Bool :=
  c.rest.take 3 == [mark, mark, mark] && endsWord (c.peek? 3)

/-- Whether a mark between documents stands here, at the start of a line. -/
def atDocumentMark (c : Cursor) : Bool := c.column == 0 && (c.atMarks '-' || c.atMarks '.')

/-- A bound on the number of steps that a reading from here can take. -/
def steps (c : Cursor) : Nat := c.rest.length + 1

end Cursor

end PipelineEditor.Yaml
