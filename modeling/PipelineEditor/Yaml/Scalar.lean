import PipelineEditor.Text.Digits
import PipelineEditor.Yaml.Cursor

/-!
# Scalars as they are written in YAML

A scalar is written plain, between quotes, or as a block of lines.  Plain and quoted scalars may
go over several lines; a single line break between two words then counts as a space, and of
several the first is dropped.  A block keeps its lines or joins them, and its header says what
becomes of the breaks at its end.

* `Gap`, `passGap?` — **blanks and breaks between two runs of a scalar, and the text they stand
  for**;
* `scanPlain?`, `scanQuoted?`, `scanBlock?` — the three ways to write a scalar.
-/

namespace PipelineEditor.Yaml

/-! ## Gaps between runs -/

/-- Blanks and breaks between two runs of characters. -/
structure Gap where
  /-- The blanks, as long as no break has come. -/
  blanks : List Char
  firstBreak : List Char
  laterBreaks : List Char
  /-- Whether a break has come. -/
  crossed : Bool

namespace Gap

/-- The gap between runs that follow each other at once. -/
def none : Gap := ⟨[], [], [], false⟩

/-- The gap that begins with an escaped break, which counts for nothing. -/
def escaped : Gap := ⟨[], [], [], true⟩

/-- The text that a gap stands for. -/
def text (g : Gap) : List Char :=
  if g.crossed then
    if g.firstBreak.head? = some '\n' then
      if g.laterBreaks.isEmpty then [' '] else g.laterBreaks
    else g.firstBreak ++ g.laterBreaks
  else g.blanks

/-- The gap with one more break. -/
def addBreak (g : Gap) (written : List Char) : Gap :=
  if g.crossed then { g with laterBreaks := g.laterBreaks ++ written }
  else ⟨[], written, [], true⟩

end Gap

/-- Passes over blanks and breaks.  In a plain scalar a tab may not stand before the column where
the scalar's lines begin. -/
def scanGap? (lineStart : Option Nat) : Nat → Cursor → Gap → Option (Gap × Cursor)
  | 0, _, _ => none
  | fuel + 1, c, g =>
    match c.takeBreak? with
    | some (written, after) => scanGap? lineStart fuel after (g.addBreak written)
    | none =>
      match c.next? with
      | some d =>
        if isBlank d then
          let misplaced := match lineStart with
            | some column => g.crossed && d == '\t' && decide (c.column < column)
            | none => false
          if misplaced then none
          else
            let g := if g.crossed then g else { g with blanks := g.blanks ++ [d] }
            scanGap? lineStart fuel (c.advance 1) g
        else some (g, c)
      | none => some (g, c)

/-- Passes over blanks and breaks from here on; there are no more steps than such characters. -/
def passGap? (lineStart : Option Nat) (c : Cursor) (g : Gap) : Option (Gap × Cursor) :=
  scanGap? lineStart ((c.rest.takeWhile fun d => isBlank d || isBreak d).length + 1) c g

/-! ## Plain scalars -/

/-- Whether a character separates the parts of a flow collection. -/
def isFlowMark (c : Char) : Bool := c == ',' || c == '[' || c == ']' || c == '{' || c == '}'

/-- The number of characters in a run of a plain scalar; a colon right before a mark of the flow
collection around it is refused. -/
def plainLength? (inFlow : Bool) : List Char → Option Nat
  | [] => some 0
  | c :: rest =>
    let after := rest.head?
    if isBlank c || isBreak c then some 0
    else if inFlow && c == ':' && after.any (fun d => isFlowMark d || d == '?') then none
    else if (c == ':' && endsWord after) || (inFlow && isFlowMark c) then some 0
    else (plainLength? inFlow rest).map (· + 1)

/-- A plain scalar: its text, where it ends, and whether a break stands at its end. -/
structure PlainScalar where
  text : List Char
  cursor : Cursor
  crossed : Bool

/-- The scalar with more text in front. -/
def PlainScalar.after (front : List Char) (scalar : PlainScalar) : PlainScalar :=
  { scalar with text := front ++ scalar.text }

/-- Reads on in a plain scalar whose lines begin at column `lineStart` or later, behind a gap. -/
def plainFrom? (inFlow : Bool) (lineStart : Nat) : Nat → Cursor → Gap → Option PlainScalar
  | 0, _, _ => none
  | fuel + 1, c, g =>
    if c.atDocumentMark || c.next? == some '#' then some ⟨[], c, g.crossed⟩
    else
      match plainLength? inFlow c.rest with
      | none => none
      | some n =>
        let after := c.advance n
        let front := if n = 0 then [] else g.text ++ c.rest.take n
        let crossed := if n = 0 then g.crossed else false
        if after.next?.any fun d => isBlank d || isBreak d then
          match passGap? (some lineStart) after Gap.none with
          | none => none
          | some (g, after) =>
            if !inFlow && decide (after.column < lineStart) then some ⟨front, after, g.crossed⟩
            else (plainFrom? inFlow lineStart fuel after g).map (·.after front)
        else some ⟨front, after, crossed⟩

/-- Reads a plain scalar. -/
def scanPlain? (inFlow : Bool) (lineStart : Nat) (c : Cursor) : Option PlainScalar :=
  plainFrom? inFlow lineStart c.steps c Gap.none

/-! ## Quoted scalars -/

/-- Where a run inside quotes ends. -/
inductive RunEnd where
  | closingQuote
  | gap
  | escapedBreak
  deriving DecidableEq

/-- The character that a short escape between double quotes stands for. -/
def shortEscape? : Char → Option Char
  | '0' => some (Char.ofNat 0)
  | 'a' => some (Char.ofNat 7)
  | 'b' => some (Char.ofNat 8)
  | 't' => some '\t'
  | '\t' => some '\t'
  | 'n' => some '\n'
  | 'v' => some (Char.ofNat 11)
  | 'f' => some (Char.ofNat 12)
  | 'r' => some '\r'
  | 'e' => some (Char.ofNat 27)
  | ' ' => some ' '
  | '"' => some '"'
  | '/' => some '/'
  | '\\' => some '\\'
  | 'N' => some (Char.ofNat 0x85)
  | '_' => some (Char.ofNat 0xA0)
  | 'L' => some (Char.ofNat 0x2028)
  | 'P' => some (Char.ofNat 0x2029)
  | _ => none

/-- The character with a code given in hexadecimal. -/
def codeChar? (digits : List Char) : Option Char := (Text.numberOf? 16 digits).bind Text.charOfCode?

/-- The characters of a run between quotes, the number of characters they take, and how the run
ends. -/
def quotedRun? (single : Bool) : List Char → Option (List Char × Nat × RunEnd)
  | [] => some ([], 0, .gap)
  | '\'' :: rest =>
    if single then
      match rest with
      | '\'' :: rest => (quotedRun? single rest).map fun r => ('\'' :: r.1, r.2.1 + 2, r.2.2)
      | _ => some ([], 0, .closingQuote)
    else (quotedRun? single rest).map fun r => ('\'' :: r.1, r.2.1 + 1, r.2.2)
  | '"' :: rest =>
    if single then (quotedRun? single rest).map fun r => ('"' :: r.1, r.2.1 + 1, r.2.2)
    else some ([], 0, .closingQuote)
  | '\\' :: rest =>
    if single then (quotedRun? single rest).map fun r => ('\\' :: r.1, r.2.1 + 1, r.2.2)
    else
      match rest with
      | 'x' :: a :: b :: rest =>
        match codeChar? [a, b], quotedRun? single rest with
        | some c, some r => some (c :: r.1, r.2.1 + 4, r.2.2)
        | _, _ => none
      | 'u' :: a :: b :: c :: d :: rest =>
        match codeChar? [a, b, c, d], quotedRun? single rest with
        | some c, some r => some (c :: r.1, r.2.1 + 6, r.2.2)
        | _, _ => none
      | 'U' :: a :: b :: c :: d :: e :: f :: g :: h :: rest =>
        match codeChar? [a, b, c, d, e, f, g, h], quotedRun? single rest with
        | some c, some r => some (c :: r.1, r.2.1 + 10, r.2.2)
        | _, _ => none
      | e :: rest =>
        if isBreak e then some ([], 1, .escapedBreak)
        else
          match shortEscape? e, quotedRun? single rest with
          | some c, some r => some (c :: r.1, r.2.1 + 2, r.2.2)
          | _, _ => none
      | [] => none
  | c :: rest =>
    if isBlank c || isBreak c then some ([], 0, .gap)
    else (quotedRun? single rest).map fun r => (c :: r.1, r.2.1 + 1, r.2.2)

/-- Reads on between quotes. -/
def quotedFrom? (single : Bool) : Nat → Cursor → Option (List Char × Cursor)
  | 0, _ => none
  | fuel + 1, c =>
    if c.atDocumentMark || c.rest.isEmpty then none
    else
      match quotedRun? single c.rest with
      | none => none
      | some (run, n, ending) =>
        let after := c.advance n
        match ending with
        | .closingQuote => some (run, after.advance 1)
        | .gap =>
          match passGap? none after Gap.none with
          | none => none
          | some (g, after) =>
            (quotedFrom? single fuel after).map fun r => (run ++ g.text ++ r.1, r.2)
        | .escapedBreak =>
          match after.takeBreak? with
          | none => none
          | some (_, after) =>
            match passGap? none after Gap.escaped with
            | none => none
            | some (g, after) =>
              (quotedFrom? single fuel after).map fun r => (run ++ g.text ++ r.1, r.2)

/-- Reads a quoted scalar, from its opening quote on. -/
def scanQuoted? (single : Bool) (c : Cursor) : Option (List Char × Cursor) :=
  quotedFrom? single c.steps (c.advance 1)

/-! ## Block scalars -/

/-- What becomes of the breaks at the end of a block. -/
inductive Chomping where
  | strip
  | clip
  | keep
  deriving DecidableEq

/-- The chomping that a mark in a header asks for. -/
def chompingMark? : Option Char → Option Chomping
  | some '+' => some .keep
  | some '-' => some .strip
  | _ => none

/-- The indentation that a digit in a header asks for. -/
def indentMark? : Option Char → Option Nat
  | some d => if d.isDigit then some (d.toNat - 48) else none
  | none => none

/-- The marks of a header in either order: chomping, indentation (zero for none) and the place
after them. -/
def blockHeader? (c : Cursor) : Option (Chomping × Nat × Cursor) :=
  match chompingMark? c.next? with
  | some chomping =>
    match indentMark? (c.peek? 1) with
    | some 0 => none
    | some n => some (chomping, n, c.advance 2)
    | none => some (chomping, 0, c.advance 1)
  | none =>
    match indentMark? c.next? with
    | some 0 => none
    | some n =>
      match chompingMark? (c.peek? 1) with
      | some chomping => some (chomping, n, c.advance 2)
      | none => some (.clip, n, c.advance 1)
    | none => some (.clip, 0, c)

/-- The number of spaces in front. -/
def leadingSpaces (cs : List Char) : Nat := (cs.takeWhile (· == ' ')).length

/-- Passes over the empty lines of a block whose lines begin at column `indent` (zero if that is
not known yet).  Gives the breaks, the largest indentation met and the place after it. -/
def blockBreaks? (indent : Nat) :
    Nat → Cursor → Nat → List Char → Option (List Char × Nat × Cursor)
  | 0, _, _, _ => none
  | fuel + 1, c, widest, breaks =>
    let spaces := leadingSpaces c.rest
    let n := if indent = 0 then spaces else min spaces (indent - c.column)
    let c := c.advance n
    let widest := max widest c.column
    if (indent = 0 ∨ c.column < indent) ∧ c.next? = some '\t' then none
    else
      match c.takeBreak? with
      | some (written, after) => blockBreaks? indent fuel after widest (breaks ++ written)
      | none => some (breaks, widest, c)

/-- A block while its lines are read. -/
structure BlockState where
  text : List Char
  leadingBreak : List Char
  trailingBreaks : List Char
  /-- Whether the line before begins with a blank, so that it is not joined. -/
  leadingBlank : Bool

/-- Reads on in a block, line by line. -/
def blockLines? (literal : Bool) (indent : Nat) :
    Nat → Cursor → BlockState → Option (BlockState × Cursor)
  | 0, _, _ => none
  | fuel + 1, c, b =>
    if c.column = indent ∧ c.rest ≠ [] then
      let blank := c.next?.any isBlank
      let joined := !literal && b.leadingBreak.head? == some '\n' && !b.leadingBlank && !blank
      let between :=
        if joined then (if b.trailingBreaks.isEmpty then [' '] else []) else b.leadingBreak
      let line := c.rest.takeWhile fun d => !isBreak d
      let text := b.text ++ between ++ b.trailingBreaks ++ line
      let after := c.advance line.length
      let (leadingBreak, after) := after.takeBreak?.getD ([], after)
      match blockBreaks? indent after.steps after 0 [] with
      | none => none
      | some (breaks, _, after) =>
        blockLines? literal indent fuel after ⟨text, leadingBreak, breaks, blank⟩
    else some (b, c)

/-- Reads a block scalar inside a collection indented by `parent`, from its mark on. -/
def scanBlock? (literal : Bool) (parent : Option Nat) (c : Cursor) :
    Option (List Char × Cursor) := do
  let (chomping, given, c) ← blockHeader? (c.advance 1)
  let c := c.advance (c.rest.takeWhile isBlank).length
  let c := if c.next? = some '#' then c.advance (c.rest.takeWhile fun d => !isBreak d).length
    else c
  if !endsLine c.next? then none
  else
    let c := (c.takeBreak?.map Prod.snd).getD c
    let outer := match parent with
      | some n => n
      | none => 0
    let inner := match parent with
      | some n => n + 1
      | none => 0
    let asked := if given = 0 then 0 else outer + given
    let (breaks, widest, c) ← blockBreaks? asked c.steps c 0 []
    let indent := if asked = 0 then max (max widest inner) 1 else asked
    let (b, c) ← blockLines? literal indent c.steps c ⟨[], [], breaks, false⟩
    let ending := match chomping with
      | .strip => []
      | .clip => b.leadingBreak
      | .keep => b.leadingBreak ++ b.trailingBreaks
    return (b.text ++ ending, c)

end PipelineEditor.Yaml
