import PipelineEditor.Yaml.Scalar
import PipelineEditor.Yaml.Tag

/-!
# The tokens of a YAML text

A YAML text is cut into tokens before its structure is read.  Indentation becomes tokens too: a
collection in block style opens where a line goes further right and closes where one goes back.
That a word is a key shows only at the colon after it, so the token that says so is put in front
of a word that has already been cut.

* `Token` — the tokens;
* `Cutting` — the state of the cutting, with the columns of the open blocks and the place of the
  word that may still turn out to be a key;
* `Token.ofText?` — **the tokens of a text**, unless it breaks a rule of the written form.
-/

namespace PipelineEditor.Yaml

/-- A token. -/
inductive Token where
  | directive (directive : Directive)
  | documentStart
  | documentEnd
  | blockSequence
  | blockMapping
  | blockEnd
  | flowSequence
  | flowSequenceEnd
  | flowMapping
  | flowMappingEnd
  | blockEntry
  | flowEntry
  | key
  | value
  | anchor (name : String)
  | tag (tag : Tag)
  | reference (name : String)
  | scalar (text : String) (plain : Bool)
  deriving DecidableEq, Repr

/-- Where a token stands that may turn out to begin a key. -/
structure KeyPlace where
  /-- The number of tokens in front of it. -/
  position : Nat
  line : Nat
  column : Nat
  index : Nat
  /-- Whether nothing else than a key may stand there. -/
  required : Bool

/-- The state of the cutting. -/
structure Cutting where
  cursor : Cursor
  /-- The tokens cut so far, the last one first. -/
  tokens : List Token
  /-- The columns of the open blocks, the innermost first. -/
  blocks : List Nat
  /-- Whether a key may begin here. -/
  keyAllowed : Bool
  /-- The token that may be a key, in the innermost flow collection. -/
  candidate : Option KeyPlace
  /-- The same for the collections around it, one for each open flow collection. -/
  outer : List (Option KeyPlace)

namespace Cutting

/-- The state at the beginning of a text. -/
def start (cs : List Char) : Cutting := ⟨Cursor.start cs, [], [], true, none, []⟩

/-- Whether a flow collection is open. -/
def inFlow (s : Cutting) : Bool := !s.outer.isEmpty

/-- The state after one more token. -/
def push (s : Cutting) (t : Token) : Cutting := { s with tokens := t :: s.tokens }

/-- The state with a token put behind the first `position` ones. -/
def insertAt (s : Cutting) (position : Nat) (t : Token) : Cutting :=
  let later := s.tokens.length - position
  { s with tokens := s.tokens.take later ++ t :: s.tokens.drop later }

/-! ## Blocks -/

/-- Whether a column is further right than the innermost block. -/
def indents (s : Cutting) (column : Nat) : Bool :=
  match s.blocks with
  | [] => true
  | block :: _ => decide (block < column)

/-- Opens a block at a column that is further right, with its token behind the first `position`
ones. -/
def openBlock (s : Cutting) (column position : Nat) (t : Token) : Cutting :=
  if !s.inFlow && s.indents column then
    let s := s.insertAt position t
    { s with blocks := column :: s.blocks }
  else s

/-- The number of blocks that end before a column, or at the end of a document. -/
def endingBlocks (column : Option Nat) (blocks : List Nat) : Nat :=
  match column with
  | some n => (blocks.takeWhile fun block => decide (n < block)).length
  | none => blocks.length

/-- Closes the blocks that end here. -/
def closeBlocks (s : Cutting) (column : Option Nat) : Cutting :=
  if s.inFlow then s
  else
    let n := endingBlocks column s.blocks
    { s with tokens := List.replicate n .blockEnd ++ s.tokens, blocks := s.blocks.drop n }

/-! ## Keys -/

/-- Gives up the candidate, which is an error if it had to be a key. -/
def dropKey? (s : Cutting) : Option Cutting :=
  match s.candidate with
  | some k => if k.required then none else some { s with candidate := none }
  | none => some s

/-- Whether a candidate is too far away for a colon here: a key ends on its line, within 1024
characters. -/
def outOfReach (c : Cursor) (k : KeyPlace) : Bool :=
  decide (k.line < c.line) || decide (k.index + 1024 < c.index)

/-- Gives up the candidates that are out of reach. -/
def expireKeys? (s : Cutting) : Option Cutting :=
  let keep (k : Option KeyPlace) : Option KeyPlace := k.filter fun k => !outOfReach s.cursor k
  let lost := s.candidate.any (fun k => k.required && outOfReach s.cursor k)
    || s.outer.any fun k => k.any fun k => k.required && outOfReach s.cursor k
  if lost then none else some { s with candidate := keep s.candidate, outer := s.outer.map keep }

/-- Takes the token that begins here for a candidate, if a key may begin here. -/
def markKey? (s : Cutting) : Option Cutting :=
  if s.keyAllowed then
    let c := s.cursor
    let required := !s.inFlow && s.blocks.head? == some c.column
    s.dropKey?.map fun s =>
      { s with candidate := some ⟨s.tokens.length, c.line, c.column, c.index, required⟩ }
  else some s

/-! ## One token -/

/-- Passes over blanks, comments and empty lines.  Says whether a key may begin afterwards: in
block style, at the start of a line. -/
def passSpace (inFlow : Bool) : Nat → Cursor → Bool → Cursor × Bool
  | 0, c, keyAllowed => (c, keyAllowed)
  | fuel + 1, c, keyAllowed =>
    match c.takeBreak? with
    | some (_, after) => passSpace inFlow fuel after (keyAllowed || !inFlow)
    | none =>
      match c.next? with
      | none => (c, keyAllowed)
      | some d =>
        let blank := d == ' ' || (d == '\t' && (inFlow || !keyAllowed))
          || (isByteOrderMark d && c.column == 0)
        if blank then passSpace inFlow fuel (c.advance 1) keyAllowed
        else if d == '#' then
          let comment := c.rest.takeWhile fun d => !isBreak d
          passSpace inFlow fuel (c.advance comment.length) keyAllowed
        else (c, keyAllowed)

/-- Cuts one character that is a token by itself. -/
def pushMark (s : Cutting) (t : Token) (keyAllowed : Bool) : Cutting :=
  { s.push t with cursor := s.cursor.advance 1, keyAllowed := keyAllowed }

/-- Cuts a directive and its line. -/
def directive? (s : Cutting) : Option Cutting :=
  (s.closeBlocks none).dropKey?.bind fun s =>
    (Directive.scan? s.cursor).map fun (directive, after) =>
      { s.push (.directive directive) with cursor := after, keyAllowed := false }

/-- Cuts a mark between documents. -/
def documentMark? (s : Cutting) (t : Token) : Option Cutting :=
  (s.closeBlocks none).dropKey?.map fun s =>
    { s.push t with cursor := s.cursor.advance 3, keyAllowed := false }

/-- Opens a flow collection. -/
def openFlow? (s : Cutting) (t : Token) : Option Cutting :=
  s.markKey?.map fun s =>
    { s.pushMark t true with candidate := none, outer := s.candidate :: s.outer }

/-- Closes a flow collection. -/
def closeFlow? (s : Cutting) (t : Token) : Option Cutting :=
  s.dropKey?.map fun s =>
    let s := s.pushMark t false
    match s.outer with
    | k :: rest => { s with candidate := k, outer := rest }
    | [] => s

/-- Cuts the comma between two entries of a flow collection. -/
def flowEntry? (s : Cutting) : Option Cutting :=
  s.dropKey?.map fun s => s.pushMark .flowEntry true

/-- Cuts the dash in front of an entry of a sequence. -/
def blockEntry? (s : Cutting) : Option Cutting :=
  if s.inFlow || s.keyAllowed then
    (s.openBlock s.cursor.column s.tokens.length .blockSequence).dropKey?.map fun s =>
      s.pushMark .blockEntry true
  else none

/-- Cuts the question mark in front of a key. -/
def explicitKey? (s : Cutting) : Option Cutting :=
  if s.inFlow || s.keyAllowed then
    (s.openBlock s.cursor.column s.tokens.length .blockMapping).dropKey?.map fun s =>
      s.pushMark .key (!s.inFlow)
  else none

/-- Cuts the colon in front of a value, which makes a key of the candidate. -/
def value? (s : Cutting) : Option Cutting :=
  match s.candidate with
  | some k =>
    let s := (s.insertAt k.position .key).openBlock k.column k.position .blockMapping
    some { s.pushMark .value false with candidate := none }
  | none =>
    if s.inFlow || s.keyAllowed then
      let s := s.openBlock s.cursor.column s.tokens.length .blockMapping
      some (s.pushMark .value (!s.inFlow))
    else none

/-- Cuts the name of an anchor, and the mark in front of it. -/
def named? (s : Cutting) (t : String → Token) : Option Cutting :=
  s.markKey?.bind fun s =>
    let c := s.cursor.advance 1
    let name := c.rest.takeWhile isNameChar
    let after := c.advance name.length
    let ends := endsWord after.next?
      || after.next?.any fun d => ['?', ':', ',', ']', '}', '%', '@', '\x60'].contains d
    if name.isEmpty || !ends then none
    else
      some { s.push (t (String.ofList name)) with cursor := after, keyAllowed := false }

/-- Cuts a tag. -/
def tag? (s : Cutting) : Option Cutting :=
  s.markKey?.bind fun s =>
    (Tag.scan? s.inFlow s.cursor).map fun (tag, after) =>
      { s.push (.tag tag) with cursor := after, keyAllowed := false }

/-- Cuts a scalar written as a block of lines. -/
def blockScalar? (s : Cutting) (literal : Bool) : Option Cutting :=
  s.dropKey?.bind fun s =>
    (scanBlock? literal s.blocks.head? s.cursor).map fun (text, after) =>
      { s.push (.scalar (String.ofList text) false) with cursor := after, keyAllowed := true }

/-- Cuts a scalar between quotes. -/
def quotedScalar? (s : Cutting) (single : Bool) : Option Cutting :=
  s.markKey?.bind fun s =>
    (scanQuoted? single s.cursor).map fun (text, after) =>
      { s.push (.scalar (String.ofList text) false) with cursor := after, keyAllowed := false }

/-- Whether a plain scalar begins with a character that another one follows. -/
def startsPlain (inFlow : Bool) (d : Char) (after : Option Char) : Bool :=
  let mark := ['-', '?', ':', ',', '[', ']', '{', '}', '#', '&', '*', '!', '|', '>', '\'', '"',
    '%', '@', '\x60'].contains d
  !(mark || isBlank d || isBreak d) || (d == '-' && !after.any isBlank)
    || (!inFlow && (d == '?' || d == ':') && !endsWord after)

/-- Cuts a plain scalar. -/
def plainScalar? (s : Cutting) : Option Cutting :=
  s.markKey?.bind fun s =>
    let lineStart := match s.blocks with
      | [] => 0
      | block :: _ => block + 1
    (scanPlain? s.inFlow lineStart s.cursor).map fun scalar =>
      { s.push (.scalar (String.ofList scalar.text) true) with
        cursor := scalar.cursor, keyAllowed := scalar.crossed }

/-- Cuts the token that begins with a character. -/
def cutToken? (s : Cutting) (d : Char) : Option Cutting :=
  let c := s.cursor
  let after := c.peek? 1
  if c.column == 0 && d == '%' then s.directive?
  else if c.atDocumentMark then s.documentMark? (if d == '-' then .documentStart else .documentEnd)
  else if d == '[' then s.openFlow? .flowSequence
  else if d == '{' then s.openFlow? .flowMapping
  else if d == ']' then s.closeFlow? .flowSequenceEnd
  else if d == '}' then s.closeFlow? .flowMappingEnd
  else if d == ',' then s.flowEntry?
  else if d == '-' && endsWord after then s.blockEntry?
  else if d == '?' && (s.inFlow || endsWord after) then s.explicitKey?
  else if d == ':' && (s.inFlow || endsWord after) then s.value?
  else if d == '*' then s.named? .reference
  else if d == '&' then s.named? .anchor
  else if d == '!' then s.tag?
  else if d == '|' && !s.inFlow then s.blockScalar? true
  else if d == '>' && !s.inFlow then s.blockScalar? false
  else if d == '\'' then s.quotedScalar? true
  else if d == '"' then s.quotedScalar? false
  else if startsPlain s.inFlow d after then s.plainScalar?
  else none

/-- Cuts on to the end of the text. -/
def run? : Nat → Cutting → Option (List Token)
  | 0, _ => none
  | fuel + 1, s =>
    let (cursor, keyAllowed) := passSpace s.inFlow s.cursor.steps s.cursor s.keyAllowed
    match expireKeys? { s with cursor := cursor, keyAllowed := keyAllowed } with
    | none => none
    | some s =>
      let s := s.closeBlocks (some s.cursor.column)
      match s.cursor.next? with
      | none => (s.closeBlocks none).dropKey?.map fun s => s.tokens.reverse
      | some d => (s.cutToken? d).bind (run? fuel)

end Cutting

/-- The tokens of a text.  Every token takes a character at least, so the length of the text
bounds their number. -/
def Token.ofText? (text : String) : Option (List Token) :=
  let cs := text.toList
  if cs.all isAdmissible then (Cutting.start cs).run? (cs.length + 1) else none

end PipelineEditor.Yaml
