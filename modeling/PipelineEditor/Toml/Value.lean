import PipelineEditor.Toml.DateTime
import PipelineEditor.Toml.Table
import PipelineEditor.Toml.Text

/-!
# Keys and values

A value is a text, a number, a truth value, a date or time, a list in brackets or a table in
braces.  Numbers may have single underscores between their digits; integers fit a signed 64-bit
word.  A list may go over several lines, a table in braces may not.

* `scanPath?` — **a key, with the keys in front of its dots**;
* `word?` — the value of an unquoted word;
* `scanValue?` — a value and what follows it.
-/

namespace PipelineEditor.Toml

/-! ## Keys -/

/-- The number of values or keys inside one another at which reading stops. -/
def nestingLimit : Nat := 80

/-- Whether a character may stand in a key without quotes. -/
def isKeyChar (c : Char) : Bool := c.isAlphanum || c == '-' || c == '_'

/-- Reads a key between two dots. -/
def scanKey? (cs : List Char) : Option (String × List Char) :=
  let bare := cs.takeWhile isKeyChar
  if bare.isEmpty then (scanLineText? cs).map fun r => (String.ofList r.1, r.2)
  else some (String.ofList bare, cs.dropWhile isKeyChar)

/-- Reads a key with the keys in front of its dots, and the blanks around them. -/
def scanKeys? : Nat → List Char → Option (List String × List Char)
  | 0, _ => none
  | fuel + 1, cs =>
    match scanKey? (skipBlanks cs) with
    | none => none
    | some (key, rest) =>
      match skipBlanks rest with
      | '.' :: rest => (scanKeys? fuel rest).map fun r => (key :: r.1, r.2)
      | rest => some ([key], rest)

/-- Reads a key, split into the path in front of it and its last part. -/
def scanPath? (cs : List Char) : Option ((List String × String) × List Char) :=
  match scanKeys? (cs.length + 1) cs with
  | none => none
  | some (keys, rest) =>
    if nestingLimit ≤ keys.length then none
    else keys.getLast?.map fun last => ((keys.dropLast, last), rest)

/-! ## Words -/

/-- Whether a character may stand in a word without quotes. -/
def isWordChar (c : Char) : Bool := isKeyChar c || c == '+' || c == '.' || c == ':'

/-- Digits without the underscores between them; there must be digits on both sides of each. -/
def joinDigits? (isDigit : Char → Bool) : List Char → Option (List Char)
  | [] => none
  | [c] => if isDigit c then some [c] else none
  | c :: '_' :: rest => if isDigit c then (joinDigits? isDigit rest).map (c :: ·) else none
  | c :: rest => if isDigit c then (joinDigits? isDigit rest).map (c :: ·) else none

/-- A decimal number without underscores and leading zeros. -/
def wholeDigits? (cs : List Char) : Option (List Char) :=
  match joinDigits? Char.isDigit cs with
  | some ['0'] => some ['0']
  | some ('0' :: _) => none
  | other => other

/-- An integer that fits a signed 64-bit word. -/
def int? (n : Int) : Option Source :=
  if h : -9223372036854775808 ≤ n ∧ n < 9223372036854775808 then
    some (.number (.int n ⟨h.1, Int.lt_trans h.2 (by decide)⟩))
  else none

/-- The integer that a word names, if it is one. -/
def integer? (cs : List Char) : Option Source :=
  let based (base : Nat) (digits : List Char) : Option Source :=
    ((joinDigits? (fun c => (Text.digitOf? base c).isSome) digits).bind
      (Text.numberOf? base)).bind fun n => int? n
  match cs with
  | '0' :: 'x' :: digits => based 16 digits
  | '0' :: 'o' :: digits => based 8 digits
  | '0' :: 'b' :: digits => based 2 digits
  | _ =>
    let (negative, digits) := Numeral.takeSign cs
    ((wholeDigits? digits).bind (Text.numberOf? 10)).bind fun n =>
      int? (if negative then -(n : Int) else n)

/-- The exponent at the end of a real number, if one is written. -/
def exponent? : List Char → Option (Option (Bool × List Char))
  | [] => some none
  | c :: rest =>
    if c = 'e' ∨ c = 'E' then
      let (negative, digits) := Numeral.takeSign rest
      (joinDigits? Char.isDigit digits).map fun digits => some (negative, digits)
    else none

/-- A real number taken apart, with a fraction, an exponent, or both. -/
def realNumeral? (cs : List Char) : Option Numeral := do
  let (negative, cs) := Numeral.takeSign cs
  let isPart (c : Char) : Bool := c.isDigit || c == '_'
  let whole ← wholeDigits? (cs.takeWhile isPart)
  match cs.dropWhile isPart with
  | '.' :: rest =>
    let fraction ← joinDigits? Char.isDigit (rest.takeWhile isPart)
    return ⟨negative, whole, some fraction, ← exponent? (rest.dropWhile isPart)⟩
  | [] => none
  | rest => return ⟨negative, whole, none, ← exponent? rest⟩

/-- The real number that a word names.  One beyond every finite number is infinite if it is
negative, and refused otherwise. -/
def real? (cs : List Char) : Option Source :=
  let (_, magnitude) := Numeral.takeSign cs
  if String.ofList magnitude ∈ ["inf", "nan"] then some .notFinite
  else
    match realNumeral? cs with
    | none => none
    | some n =>
      match n.nearest? with
      | some x => some (.number x)
      | none => if n.negative then some .notFinite else none

/-- The value of a word without quotes that is no date. -/
def word? (cs : List Char) : Option Source :=
  if cs = ['t', 'r', 'u', 'e'] then some (.bool true)
  else if cs = ['f', 'a', 'l', 's', 'e'] then some (.bool false)
  else
    match integer? cs with
    | some s => some s
    | none => real? cs

/-- The name under which a date or time is handed on. -/
def dateTimeName : String := "$__toml_private_datetime"

/-- A date or time as a source tree: a record with one member. -/
def dateTimeSource (text : List Char) : Source :=
  .object [(.text dateTimeName, .string (String.ofList text))]

/-- Reads a word without quotes. -/
def scanWord? (cs : List Char) : Option (Source × List Char) :=
  match DateTime.scan? cs with
  | some (text, rest) => some (dateTimeSource text, rest)
  | none => (word? (cs.takeWhile isWordChar)).map fun s => (s, cs.dropWhile isWordChar)

/-! ## Values -/

mutual
/-- Reads a value that stands inside `depth` lists and tables. -/
def scanValueAt? : Nat → Nat → List Char → Option (Source × List Char)
  | 0, _, _ => none
  | fuel + 1, depth, cs =>
    match cs with
    | '[' :: rest =>
      if nestingLimit ≤ depth + 1 then none
      else (scanElements? fuel (depth + 1) rest).map fun r => (.array r.1, r.2)
    | '{' :: rest =>
      if nestingLimit ≤ depth + 1 then none
      else
        match skipBlanks rest with
        | '}' :: rest => some (.object [], rest)
        | rest => (scanPairs? fuel (depth + 1) [] rest).map fun r => (Table.toSource r.1, r.2)
    | _ =>
      match cs.head? with
      | some c =>
        if c = '"' ∨ c = '\'' then
          (scanText? cs).map fun r => (.string (String.ofList r.1), r.2)
        else scanWord? cs
      | none => none

/-- Reads the elements of a list up to its closing bracket; a comma may follow the last one. -/
def scanElements? : Nat → Nat → List Char → Option (List Source × List Char)
  | 0, _, _ => none
  | fuel + 1, depth, cs =>
    match skipLines cs.length cs with
    | ']' :: rest => some ([], rest)
    | cs =>
      match scanValueAt? fuel depth cs with
      | none => none
      | some (s, rest) =>
        match skipLines rest.length rest with
        | ',' :: rest => (scanElements? fuel depth rest).map fun r => (s :: r.1, r.2)
        | ']' :: rest => some ([s], rest)
        | _ => none

/-- Reads the pairs of a table in braces up to its closing brace, into the members read so
far. -/
def scanPairs? : Nat → Nat → Table → List Char → Option (Table × List Char)
  | 0, _, _, _ => none
  | fuel + 1, depth, t, cs =>
    match scanPath? cs with
    | some ((path, key), '=' :: rest) =>
      match scanValueAt? fuel depth (skipBlanks rest) with
      | none => none
      | some (s, rest) =>
        match t.put? path key s with
        | none => none
        | some t =>
          match skipBlanks rest with
          | ',' :: rest => scanPairs? fuel depth t rest
          | '}' :: rest => some (t, rest)
          | _ => none
    | _ => none
end

/-- Reads a value. -/
def scanValue? (cs : List Char) : Option (Source × List Char) :=
  scanValueAt? (2 * cs.length + 2) 0 cs

end PipelineEditor.Toml
