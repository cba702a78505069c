import PipelineEditor.Text.Digits
import PipelineEditor.Yaml.Cursor

/-!
# Tags and directives

A tag in front of a node says what type the node has.  It is written in full between angle brackets,
or shortened: behind a handle, for which a directive in front of the document declares the beginning
of the tag, or behind a single mark.  Characters may be escaped by the octets of their encoding, and
the octets need not encode any.

* `TagText`, `scanUri?` — the text of a tag and the way it is written;
* `Tag.scan?`, `Directive.scan?` — **a tag, and a directive with its line**;
* `shorthands?` — the handles that the directives of a document declare, and the two that are
  always there;
* `Tag.text?` — the text that a tag stands for in a document.
-/

namespace PipelineEditor.Yaml

/-! ## Escaped characters -/

/-- The text of a tag, with a gap for octets that encode no character. -/
abbrev TagText : Type := List (Option Char)

/-- Reads an octet written in two hexadecimal digits behind a percent sign. -/
def scanOctet? : List Char → Option (Nat × List Char)
  | '%' :: high :: low :: rest => (Text.numberOf? 16 [high, low]).map fun octet => (octet, rest)
  | _ => none

/-- The number of octets that follow the first one of a character, and the bits of the first one
that belong to the character's code. -/
def leadingOctet? (octet : Nat) : Option (Nat × Nat) :=
  if octet < 0x80 then some (0, octet)
  else if octet < 0xC0 then none
  else if octet < 0xE0 then some (1, octet % 32)
  else if octet < 0xF0 then some (2, octet % 16)
  else if octet < 0xF8 then some (3, octet % 8)
  else none

/-- Reads the octets that follow the first one, which carry six bits of the code each. -/
def scanFollowing? : Nat → Nat → List Char → Option (Nat × List Char)
  | 0, code, cs => some (code, cs)
  | n + 1, code, cs =>
    match scanOctet? cs with
    | some (octet, rest) =>
      if octet / 64 = 2 then scanFollowing? n (64 * code + octet % 64) rest else none
    | none => none

/-- The least code that needs so many octets after the first one. -/
def leastCode : Nat → Nat
  | 0 => 0
  | 1 => 0x80
  | 2 => 0x800
  | _ => 0x10000

/-- Reads an escaped character.  The code may be one that is written with fewer octets, or one that
no character has. -/
def scanEscape? (cs : List Char) : Option (Option Char × List Char) :=
  match scanOctet? cs with
  | none => none
  | some (octet, rest) =>
    match leadingOctet? octet with
    | none => none
    | some (n, bits) =>
      (scanFollowing? n bits rest).map fun (code, rest) =>
        (if leastCode n ≤ code then Text.charOfCode? code else none, rest)

/-! ## Tags -/

/-- Whether a character may stand in a tag unescaped.  Brackets and commas may do so where they
cannot be taken for those of a flow collection. -/
def isUriChar (verbatim : Bool) (c : Char) : Bool :=
  isNameChar c
    || [';', '/', '?', ':', '@', '&', '=', '+', '$', '.', '!', '~', '*', '\'', '(', ')'].contains c
    || (verbatim && [',', '[', ']'].contains c)

/-- Reads as much of a tag as there is.  Every step takes a character at least. -/
def scanUri? (verbatim : Bool) : Nat → List Char → Option (TagText × List Char)
  | 0, _ => none
  | _ + 1, [] => some ([], [])
  | fuel + 1, c :: cs =>
    if c == '%' then
      match scanEscape? (c :: cs) with
      | some (d, rest) => (scanUri? verbatim fuel rest).map fun r => (d :: r.1, r.2)
      | none => none
    else if isUriChar verbatim c then
      (scanUri? verbatim fuel cs).map fun r => (some c :: r.1, r.2)
    else some ([], c :: cs)

/-- Reads a part of a tag that may not be empty. -/
def scanPart? (verbatim : Bool) (cs : List Char) : Option (TagText × List Char) :=
  match scanUri? verbatim (cs.length + 1) cs with
  | some ([], _) => none
  | part => part

namespace TagText

/-- The text up to the null character, which ends it. -/
def upToNull (t : TagText) : TagText := t.takeWhile (· != some '\x00')

/-- The characters of a text as the text of a tag. -/
def ofString (text : String) : TagText := text.toList.map some

end TagText

/-- A tag as it is written: a handle, unless it is written in full, and what follows it. -/
structure Tag where
  handle : Option String
  suffix : TagText
  deriving DecidableEq, Repr

/-- Reads a mark, the name that follows it, and the mark that may follow the name. -/
def scanHandle? : List Char → Option (List Char × List Char)
  | '!' :: cs =>
    let name := cs.takeWhile isNameChar
    match cs.dropWhile isNameChar with
    | '!' :: rest => some ('!' :: name ++ ['!'], rest)
    | rest => some ('!' :: name, rest)
  | _ => none

namespace Tag

/-- The tag behind a single mark.  The mark alone is a tag in full. -/
def primary (suffix : TagText) : Tag :=
  if suffix.isEmpty then ⟨none, TagText.ofString "!"⟩ else ⟨some "!", suffix⟩

/-- Reads a tag. -/
def scanTag? (cs : List Char) : Option (Tag × List Char) :=
  match cs with
  | '!' :: '<' :: cs =>
    match scanPart? true cs with
    | some (text, '>' :: rest) => some (⟨none, text.upToNull⟩, rest)
    | _ => none
  | _ =>
    match scanHandle? cs with
    | none => none
    | some (handle, rest) =>
      -- without the second mark it was no handle, and its name begins the suffix
      if 1 < handle.length ∧ handle.getLast? = some '!' then
        (scanPart? false rest).map fun (suffix, rest) =>
          (⟨some (String.ofList handle), suffix.upToNull⟩, rest)
      else
        (scanUri? false (rest.length + 1) rest).map fun (suffix, rest) =>
          (.primary (TagText.upToNull (handle.tail.map some ++ suffix)), rest)

/-- Reads the tag that begins here, which is a word by itself. -/
def scan? (inFlow : Bool) (c : Cursor) : Option (Tag × Cursor) :=
  match scanTag? c.rest with
  | some (tag, rest) =>
    if endsWord rest.head? || (inFlow && rest.head? == some ',') then some (tag, c.advanceTo rest)
    else none
  | none => none

end Tag

/-! ## Directives -/

/-- A directive: the version of the language, or the beginning of the tags behind a handle. -/
inductive Directive where
  | version (major minor : Nat)
  | shorthand (handle : String) (start : TagText)
  deriving DecidableEq, Repr

namespace Directive

/-- Reads a number of a version. -/
def scanNumber? (cs : List Char) : Option (Nat × List Char) :=
  let digits := cs.takeWhile Char.isDigit
  if digits.isEmpty ∨ 9 < digits.length then none
  else (Text.numberOf? 10 digits).map fun n => (n, cs.dropWhile Char.isDigit)

/-- Reads a version. -/
def scanVersion? (cs : List Char) : Option (Directive × List Char) :=
  match scanNumber? (cs.dropWhile isBlank) with
  | some (major, '.' :: rest) =>
    (scanNumber? rest).map fun (minor, rest) => (.version major minor, rest)
  | _ => none

/-- Reads a handle and the beginning of its tags. -/
def scanShorthand? (cs : List Char) : Option (Directive × List Char) :=
  match scanHandle? (cs.dropWhile isBlank) with
  | none => none
  | some (handle, rest) =>
    if handle.getLast? = some '!' ∧ rest.head?.any isBlank then
      match scanPart? true (rest.dropWhile isBlank) with
      | some (start, rest) =>
        if endsWord rest.head? then
          some (.shorthand (String.ofList handle) start.upToNull, rest)
        else none
      | none => none
    else none

/-- Reads a directive after its percent sign. -/
def scanDirective? (cs : List Char) : Option (Directive × List Char) :=
  let rest := cs.dropWhile isNameChar
  let name := String.ofList (cs.takeWhile isNameChar)
  if !endsWord rest.head? then none
  else if name = "YAML" then scanVersion? rest
  else if name = "TAG" then scanShorthand? rest
  else none

/-- Reads the directive that stands on the line which begins here, and passes on to the next
line.  A comment may follow it. -/
def scan? (c : Cursor) : Option (Directive × Cursor) :=
  match scanDirective? c.rest.tail with
  | none => none
  | some (directive, rest) =>
    let rest := rest.dropWhile isBlank
    let rest := if rest.head? = some '#' then rest.dropWhile (!isBreak ·) else rest
    if endsLine rest.head? then
      let after := c.advanceTo rest
      some (directive, (after.takeBreak?.map Prod.snd).getD after)
    else none

/-- The version that a directive names. -/
def version? : Directive → Option (Nat × Nat)
  | version major minor => some (major, minor)
  | shorthand _ _ => none

/-- The handle that a directive declares, with the beginning of its tags. -/
def shorthand? : Directive → Option (String × TagText)
  | version _ _ => none
  | shorthand handle start => some (handle, start)

end Directive

/-! ## Handles -/

/-- The versions of the language that are read. -/
def versions : List (Nat × Nat) := [(1, 1), (1, 2)]

/-- The beginning of the tags that the language itself gives a meaning. -/
def standardStart : TagText := TagText.ofString "tag:yaml.org,2002:"

/-- The handles that need no directive. -/
def standardShorthands : List (String × TagText) :=
  [("!", TagText.ofString "!"), ("!!", standardStart)]

/-- The handles of a document with the beginnings of their tags, those that its directives declare
in front.  There may be one version, and one declaration for each handle. -/
def shorthands? (directives : List Directive) : Option (List (String × TagText)) :=
  let named := directives.filterMap Directive.version?
  let declared := directives.filterMap Directive.shorthand?
  let coherent :=
    named.length ≤ 1 ∧ (∀ version ∈ named, version ∈ versions) ∧ (declared.map Prod.fst).Nodup
  if coherent then some (declared ++ standardShorthands) else none

/-- The text of a tag, if its handle is known. -/
def Tag.text? (tag : Tag) (shorthands : List (String × TagText)) : Option TagText :=
  match tag.handle with
  | none => some tag.suffix
  | some handle => (shorthands.lookup handle).map fun start => start ++ tag.suffix

end PipelineEditor.Yaml
