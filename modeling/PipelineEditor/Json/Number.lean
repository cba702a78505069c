import PipelineEditor.Number.Shortest

/-!
# Numbers in JSON texts

A numeral without fraction and exponent that fits an unsigned or a signed 64-bit word is an
integer; every other numeral is a real number kept to binary64 precision, and one that rounds to
infinity has no value at all.  The numeral `-0` is the real number negative zero, because the
integers have only one zero.

A reader of JSON texts does not look for the nearest real number.  It takes as many digits as fit a
64-bit word, scales them by a power of ten that is itself rounded, and what comes of that may miss
the nearest number in the last places or overflow where the nearest number would not.

* `Number` — an integer within the two word ranges, or a finite real;
* `Numeral.scan?` — the grammar of numerals, which refuses leading zeros and bare points;
* `Numeral.nearest?`, `Numeral.real?` — the real number nearest to a numeral, and the one that a
  reader of JSON texts makes of it;
* `Numeral.value?` — the number that a numeral names;
* `Number.text` — **the text of a number**: integers in decimal, reals by their shortest digits,
  positional while the first digit stands between the fifth place after the point and the
  sixteenth before it.
-/

namespace PipelineEditor

/-- The integers of an unsigned or of a signed 64-bit word. -/
def FitsWord (n : Int) : Prop := -9223372036854775808 ≤ n ∧ n < 18446744073709551616

instance (n : Int) : Decidable (FitsWord n) := by unfold FitsWord; infer_instance

/-- A number of a document. -/
inductive Number where
  | int (value : Int) (fits : FitsWord value)
  | real (value : Binary64)
  deriving DecidableEq

namespace Number

/-- Whether a number equals zero; both zeros of the reals do. -/
def isZero : Number → Bool
  | int n _ => n == 0
  | real x => x.isZero

/-! ## The text of a number -/

/-- Digits with a point after the first `whole` of them, filled up with zeros. -/
def withPoint (digits : List Char) (whole : Nat) : List Char :=
  let front := digits.take whole ++ List.replicate (whole - digits.length) '0'
  let back := digits.drop whole
  front ++ '.' :: (if back.isEmpty then ['0'] else back)

/-- The text of an integer. -/
def intText (n : Int) : List Char :=
  if n < 0 then '-' :: Nat.toDigits 10 n.natAbs else Nat.toDigits 10 n.natAbs

/-- The text of a decimal: positional for exponents from -5 to 15, else scientific. -/
def decimalText (d : Binary64.Decimal) : List Char :=
  if -5 ≤ d.exponent ∧ d.exponent < 0 then
    '0' :: '.' :: List.replicate ((-d.exponent).toNat - 1) '0' ++ d.digits
  else if 0 ≤ d.exponent ∧ d.exponent ≤ 15 then
    withPoint d.digits (d.exponent.toNat + 1)
  else
    let mantissa := match d.digits with
      | [] => []
      | [c] => [c]
      | c :: rest => c :: '.' :: rest
    let sign := if d.exponent < 0 then '-' else '+'
    mantissa ++ 'e' :: sign :: Nat.toDigits 10 d.exponent.natAbs

/-- The text of a real number. -/
def realText (x : Binary64) : List Char :=
  let magnitude := if x.isZero then ['0', '.', '0'] else decimalText x.shortestDecimal
  if x.negative then '-' :: magnitude else magnitude

/-- The text of a number. -/
def text : Number → List Char
  | int n _ => intText n
  | real x => realText x

end Number

/-! ## Numerals -/

/-- A numeral taken apart: sign, digits before and after the point, exponent. -/
structure Numeral where
  negative : Bool
  whole : List Char
  fraction : Option (List Char)
  exponent : Option (Bool × List Char)
  deriving DecidableEq, Repr

namespace Numeral

/-- The natural number that decimal digits name. -/
def natOf (digits : List Char) : Nat :=
  digits.foldl (fun n c => 10 * n + (c.toNat - 48)) 0

/-- The characters that numerals are made of. -/
def isNumeralChar (c : Char) : Bool :=
  c.isDigit || c == '-' || c == '+' || c == '.' || c == 'e' || c == 'E'

/-- The sign, if the characters start with a minus. -/
def takeMinus : List Char → Bool × List Char
  | '-' :: rest => (true, rest)
  | cs => (false, cs)

/-- The sign of an exponent, if there is one. -/
def takeSign : List Char → Bool × List Char
  | '-' :: rest => (true, rest)
  | '+' :: rest => (false, rest)
  | cs => (false, cs)

/-- The exponent part at the end of a numeral. -/
def scanExponent? (cs : List Char) : Option (Option (Bool × List Char)) :=
  match cs with
  | [] => some none
  | c :: rest =>
    if c = 'e' ∨ c = 'E' then
      let (negative, digits) := takeSign rest
      if digits ≠ [] ∧ digits.all Char.isDigit then some (some (negative, digits)) else none
    else none

/-- Reads a whole run of characters as a numeral. -/
def scan? (cs : List Char) : Option Numeral :=
  let (negative, cs) := takeMinus cs
  let whole := cs.takeWhile Char.isDigit
  let rest := cs.dropWhile Char.isDigit
  if whole = [] ∨ (whole.head? = some '0' ∧ whole.length ≠ 1) then none
  else
    match rest with
    | '.' :: rest =>
      let fraction := rest.takeWhile Char.isDigit
      if fraction = [] then none
      else (scanExponent? (rest.dropWhile Char.isDigit)).map fun e =>
        ⟨negative, whole, some fraction, e⟩
    | rest => (scanExponent? rest).map fun e => ⟨negative, whole, none, e⟩

/-- The decimal exponent of the last digit. -/
def scale (n : Numeral) : Int :=
  let places : Int := (n.fraction.getD []).length
  match n.exponent with
  | none => -places
  | some (true, digits) => -(natOf digits : Int) - places
  | some (false, digits) => (natOf digits : Int) - places

/-- The real number nearest to a numeral, if it is finite. -/
def nearest? (n : Numeral) : Option Number :=
  (Binary64.ofDecimal? n.negative (natOf (n.whole ++ n.fraction.getD [])) n.scale).map .real

/-- Appends digits to a significand as long as it fits an unsigned 64-bit word.  Gives the number of
the digits taken, too; the first one that does not fit ends it. -/
def takeDigits : Nat → List Char → Nat × Nat
  | significand, [] => (significand, 0)
  | significand, c :: rest =>
    let next := 10 * significand + (c.toNat - 48)
    if next < 18446744073709551616 then
      let (significand, taken) := takeDigits next rest
      (significand, taken + 1)
    else (significand, 0)

/-- The greatest exponent that is counted.  Beyond it a numeral is zero or has no value. -/
def greatestExponent : Nat := 2147483647

/-- The real number that a reader of JSON texts makes of a numeral, if it is finite.  Digits before
the point that do not fit the significand count as places, those behind it do not count. -/
def real? (n : Numeral) : Option Number :=
  let (whole, taken) := takeDigits 0 n.whole
  let (significand, places) := takeDigits whole (n.fraction.getD [])
  let shift : Int := ((n.whole.length - taken : Nat) : Int) - places
  let shifted (exponent : Int) : Option Binary64 :=
    (Binary64.ofRatio? false significand 1).bind fun x => x.scaleByTen? (shift + exponent)
  let magnitude :=
    match n.exponent with
    | none => shifted 0
    | some (below, digits) =>
      let e := natOf digits
      if e ≤ greatestExponent then shifted (if below then -e else e)
      else if significand = 0 ∨ below then some (.zero false)
      else none
  magnitude.map fun x => .real { x with negative := n.negative }

/-- The number that a numeral names, if there is one. -/
def value? (n : Numeral) : Option Number :=
  match n.fraction, n.exponent with
  | none, none =>
    let magnitude := natOf n.whole
    let value : Int := if n.negative then -(magnitude : Int) else magnitude
    if n.negative ∧ magnitude = 0 then some (.real (.zero true))
    else if h : FitsWord value then some (.int value h)
    else n.real?
  | _, _ => n.real?

end Numeral

end PipelineEditor
