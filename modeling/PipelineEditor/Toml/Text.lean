import PipelineEditor.Text.Digits

/-!
# Lines and texts in TOML

A TOML document is a row of lines, and no control character but the tab may stand in a line, not
even in a comment.  Texts come in four forms: with escapes or taken literally, on one line or on
several.

* `skipBlanks`, `endLine?`, `skipLines?` — what may stand between the parts of a document;
* `scanText?` — **a text in any of its forms**;
* `scanLineText?` — a text on one line, the form that is left to keys.
-/

namespace PipelineEditor.Toml

/-! ## Lines -/

/-- Whether a character separates words within a line. -/
def isBlank (c : Char) : Bool := c == ' ' || c == '\t'

/-- Whether a character may stand in a line. -/
def isPrintable (c : Char) : Bool :=
  c == '\t' || (0x20 ≤ c.toNat && c.toNat ≤ 0x7E) || 0x80 ≤ c.toNat

/-- What is left after blanks. -/
def skipBlanks (cs : List Char) : List Char := cs.dropWhile isBlank

/-- What is left after a comment, if one begins here. -/
def skipComment : List Char → List Char
  | '#' :: rest => rest.dropWhile isPrintable
  | cs => cs

/-- What is left after the end of a line. -/
def newline? : List Char → Option (List Char)
  | '\n' :: rest => some rest
  | '\r' :: '\n' :: rest => some rest
  | _ => none

/-- What is left after the end of a line or of the document, with blanks and a comment before
it. -/
def endLine? (cs : List Char) : Option (List Char) :=
  match skipComment (skipBlanks cs) with
  | [] => some []
  | rest => newline? rest

/-- What is left after blanks, comments and line ends. -/
def skipLines : Nat → List Char → List Char
  | 0, cs => cs
  | fuel + 1, cs =>
    let rest := skipBlanks cs
    match newline? (skipComment rest) with
    | some after => skipLines fuel after
    | none => rest

/-! ## Texts with escapes -/

/-- The character that a short escape stands for. -/
def shortEscape? : Char → Option Char
  | 'b' => some (Char.ofNat 8)
  | 't' => some '\t'
  | 'n' => some '\n'
  | 'f' => some (Char.ofNat 12)
  | 'r' => some '\r'
  | '"' => some '"'
  | '\\' => some '\\'
  | _ => none

/-- The character that an escape stands for, given what follows its backslash, and the number of
characters that the escape takes after it. -/
def escape? : List Char → Option (Char × Nat)
  | 'u' :: rest =>
    if (rest.take 4).length = 4 then
      ((Text.numberOf? 16 (rest.take 4)).bind Text.charOfCode?).map fun c => (c, 5)
    else none
  | 'U' :: rest =>
    if (rest.take 8).length = 8 then
      ((Text.numberOf? 16 (rest.take 8)).bind Text.charOfCode?).map fun c => (c, 9)
    else none
  | e :: _ => (shortEscape? e).map fun c => (c, 1)
  | [] => none

/-- Puts a character in front of a text that has been read. -/
def consText (c : Char) (r : Option (List Char × List Char)) : Option (List Char × List Char) :=
  r.map fun r => (c :: r.1, r.2)

/-- Reads a text on one line up to its closing mark. -/
def lineText? : Nat → List Char → Option (List Char × List Char)
  | 0, _ => none
  | fuel + 1, cs =>
    match cs with
    | '"' :: rest => some ([], rest)
    | '\\' :: rest =>
      match escape? rest with
      | some (c, n) => consText c (lineText? fuel (rest.drop n))
      | none => none
    | c :: rest => if isPrintable c then consText c (lineText? fuel rest) else none
    | [] => none

/-- The closing marks of a text over several lines, given that at least three stand here: up to
two more belong to the text. -/
def closing (mark : Char) (cs : List Char) : List Char × List Char :=
  let n := min ((cs.takeWhile (· == mark)).length - 3) 2
  (List.replicate n mark, cs.drop (n + 3))

/-- Whether three marks stand here. -/
def atMarks (mark : Char) (cs : List Char) : Bool := cs.take 3 == [mark, mark, mark]

/-- Reads a text over several lines up to its closing marks.  After a backslash at the end of a
line, everything up to the next printed character is passed over. -/
def linesText? : Nat → Bool → List Char → Option (List Char × List Char)
  | 0, _, _ => none
  | fuel + 1, passing, cs =>
    if atMarks '"' cs then some (closing '"' cs)
    else
      match newline? cs with
      | some rest =>
        if passing then linesText? fuel true rest else consText '\n' (linesText? fuel false rest)
      | none =>
        match cs with
        | '\\' :: rest =>
          match newline? (skipBlanks rest) with
          | some after => linesText? fuel true after
          | none =>
            match escape? rest with
            | some (c, n) => consText c (linesText? fuel false (rest.drop n))
            | none => none
        | c :: rest =>
          if passing && isBlank c then linesText? fuel true rest
          else if isPrintable c then consText c (linesText? fuel false rest)
          else none
        | [] => none

/-! ## Literal texts -/

/-- Reads a literal text on one line up to its closing mark. -/
def lineLiteral? : List Char → Option (List Char × List Char)
  | '\'' :: rest => some ([], rest)
  | c :: rest => if isPrintable c then consText c (lineLiteral? rest) else none
  | [] => none

/-- Reads a literal text over several lines up to its closing marks. -/
def linesLiteral? : Nat → List Char → Option (List Char × List Char)
  | 0, _ => none
  | fuel + 1, cs =>
    if atMarks '\'' cs then some (closing '\'' cs)
    else
      match newline? cs with
      | some rest => consText '\n' (linesLiteral? fuel rest)
      | none =>
        match cs with
        | c :: rest => if isPrintable c then consText c (linesLiteral? fuel rest) else none
        | [] => none

/-! ## All forms -/

/-- Reads a text on one line, if one begins here. -/
def scanLineText? : List Char → Option (List Char × List Char)
  | '"' :: rest => lineText? (rest.length + 1) rest
  | '\'' :: rest => lineLiteral? rest
  | _ => none

/-- Reads a text, if one begins here.  A line end right after the opening marks of a text over
several lines does not count. -/
def scanText? (cs : List Char) : Option (List Char × List Char) :=
  let body := (newline? (cs.drop 3)).getD (cs.drop 3)
  if atMarks '"' cs then linesText? (body.length + 1) false body
  else if atMarks '\'' cs then linesLiteral? (body.length + 1) body
  else scanLineText? cs

end PipelineEditor.Toml
