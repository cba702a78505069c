import PipelineEditor.Text.Digits

/-!
# Quoted texts

Between quotation marks a character stands for itself unless it is a quotation mark, a backslash
or a control character; those are written as escapes.  Reading goes in two steps.  The first
splits the text into units and only knows the grammar, so it accepts any escape `\uXXXX`.  The
second gives the units their characters: two escapes that form a surrogate pair name one
character, and a surrogate that stands alone names none.

* `quote` — the quoted form, with the short escapes where there is one and `\u00xx` for the
  other control characters;
* `scan?` — **the units of a quoted text and what follows its closing mark**;
* `decode?` — the characters that units name.
-/

namespace PipelineEditor.Json

/-! ## Writing -/

/-- The hexadecimal digit with a value below sixteen, in lower case. -/
def hexDigit (n : Nat) : Char := Nat.digitChar n

/-- A character as it stands between quotation marks. -/
def escape (c : Char) : List Char :=
  if c = '"' then ['\\', '"']
  else if c = '\\' then ['\\', '\\']
  else if c = '\n' then ['\\', 'n']
  else if c = '\r' then ['\\', 'r']
  else if c = '\t' then ['\\', 't']
  else if c.toNat = 8 then ['\\', 'b']
  else if c.toNat = 12 then ['\\', 'f']
  else if c.toNat < 32 then
    ['\\', 'u', '0', '0', hexDigit (c.toNat / 16), hexDigit (c.toNat % 16)]
  else [c]

/-- A text between quotation marks. -/
def quote (cs : List Char) : List Char := '"' :: cs.flatMap escape ++ ['"']

/-! ## Reading -/

/-- A unit of a quoted text: a character, or the number of an escape `\uXXXX`. -/
inductive QuotedUnit where
  | char (c : Char)
  | code (n : Nat)
  deriving DecidableEq, Repr

/-- The character that a short escape stands for. -/
def shortEscape? : Char → Option Char
  | '"' => some '"'
  | '\\' => some '\\'
  | '/' => some '/'
  | 'b' => some (Char.ofNat 8)
  | 'f' => some (Char.ofNat 12)
  | 'n' => some '\n'
  | 'r' => some '\r'
  | 't' => some '\t'
  | _ => none

/-- Splits what follows an opening mark into the units up to the closing mark and the rest. -/
def scan? : List Char → Option (List QuotedUnit × List Char)
  | '"' :: rest => some ([], rest)
  | '\\' :: 'u' :: a :: b :: c :: d :: rest => do
    let n ← Text.numberOf? 16 [a, b, c, d]
    let (units, rest) ← scan? rest
    return (.code n :: units, rest)
  | '\\' :: e :: rest => do
    let c ← shortEscape? e
    let (units, rest) ← scan? rest
    return (.char c :: units, rest)
  | c :: rest =>
    if c.toNat < 32 ∨ c = '\\' then none
    else do
      let (units, rest) ← scan? rest
      return (.char c :: units, rest)
  | [] => none

/-- Whether a code is the first half of a surrogate pair. -/
def isHighSurrogate (n : Nat) : Bool := 0xD800 ≤ n && n < 0xDC00

/-- Whether a code is the second half of a surrogate pair. -/
def isLowSurrogate (n : Nat) : Bool := 0xDC00 ≤ n && n < 0xE000

/-- The characters that units name, unless a surrogate stands alone. -/
def decode? : List QuotedUnit → Option (List Char)
  | [] => some []
  | .char c :: rest => (decode? rest).map (c :: ·)
  | .code h :: .code l :: rest =>
    if isHighSurrogate h then
      if isLowSurrogate l then
        (decode? rest).map (Char.ofNat (0x10000 + (h - 0xD800) * 0x400 + (l - 0xDC00)) :: ·)
      else none
    else if isLowSurrogate h then none
    else (decode? (.code l :: rest)).map (Char.ofNat h :: ·)
  | .code n :: rest =>
    if isHighSurrogate n || isLowSurrogate n then none
    else (decode? rest).map (Char.ofNat n :: ·)

end PipelineEditor.Json
