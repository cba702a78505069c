/-!
# Binary floating point with 53 significant bits

Numbers that are no integer of the documents' range are kept to the precision of the binary64
format.  A finite number of that format is a sign and a product `significand · 2 ^ exponent`,
so its value is exact here and everything about it is decided in natural numbers.

* `Binary64` — sign, significand and exponent of a finite number;
* `Binary64.ofRatio?` — **the nearest number to a quotient, a half going to the even
  significand**, and none when that number would be infinite;
* `Binary64.ofDecimal?` — the same for `digits · 10 ^ scale`, the value of a decimal numeral;
* `Binary64.mul?`, `Binary64.div?` — the arithmetic of the format, each operation the exact result
  rounded once;
* `Binary64.scaleByTen?` — **a number times a power of ten by way of that arithmetic**, which may
  miss the nearest number in the last places.
-/

namespace PipelineEditor

/-- The finite number `± significand · 2 ^ exponent`. -/
structure Binary64 where
  negative : Bool
  significand : Nat
  exponent : Int
  deriving DecidableEq, Repr

namespace Binary64

/-- The exponent of the numbers next to zero. -/
def leastExponent : Int := -1074

/-- The exponent of the largest finite numbers. -/
def greatestExponent : Int := 971

/-- Zero with a sign. -/
def zero (negative : Bool) : Binary64 := ⟨negative, 0, leastExponent⟩

/-- Whether a number is zero, of either sign. -/
def isZero (x : Binary64) : Bool := x.significand == 0

/-- The quotient rounded to the nearest natural number, a half to the even one. -/
def roundHalfEven (num den : Nat) : Nat :=
  let down := num / den
  let twice := 2 * (num % den)
  if twice < den then down
  else if den < twice then down + 1
  else if down % 2 = 0 then down else down + 1

/-- The quotient `num / (den · 2 ^ e)` as numerator and denominator. -/
def scaled (num den : Nat) (e : Int) : Nat × Nat :=
  if 0 ≤ e then (num, den * Nat.pow 2 e.toNat) else (num * Nat.pow 2 (-e).toNat, den)

/-- The exponent at which the quotient has 53 binary digits before the point, or the least one. -/
def exponentOf (num den : Nat) : Int :=
  let e : Int := (num.log2 : Int) - (den.log2 : Int) - 52
  let (n, d) := scaled num den e
  max leastExponent (if n < d * Nat.pow 2 52 then e - 1 else e)

/-- The number nearest to `num / den`, if it is finite. -/
def ofRatio? (negative : Bool) (num den : Nat) : Option Binary64 :=
  if num = 0 then some (zero negative)
  else
    let e := exponentOf num den
    let (n, d) := scaled num den e
    let significand := roundHalfEven n d
    let (significand, e) :=
      if significand = Nat.pow 2 53 then (Nat.pow 2 52, e + 1) else (significand, e)
    if greatestExponent < e then none else some ⟨negative, significand, e⟩

/-- The number of decimal digits of a natural number. -/
def decimalLength (n : Nat) : Nat := (Nat.toDigits 10 n).length

/-- The number nearest to `digits · 10 ^ scale`, if it is finite.  A numeral whose first digit
stands beyond the 310th place before the point is too large whatever its digits are, and one
that begins beyond the 330th place after the point rounds to zero. -/
def ofDecimal? (negative : Bool) (digits : Nat) (scale : Int) : Option Binary64 :=
  if digits = 0 then some (zero negative)
  else
    let places : Int := decimalLength digits + scale
    if 310 < places then none
    else if places < -330 then some (zero negative)
    else if 0 ≤ scale then ofRatio? negative (digits * Nat.pow 10 scale.toNat) 1
    else ofRatio? negative digits (Nat.pow 10 (-scale).toNat)

/-! ## Arithmetic -/

/-- The product of two numbers, if it is finite. -/
def mul? (x y : Binary64) : Option Binary64 :=
  let (num, den) := scaled (x.significand * y.significand) 1 (-(x.exponent + y.exponent))
  ofRatio? (x.negative != y.negative) num den

/-- The quotient by a number other than zero, if it is finite. -/
def div? (x y : Binary64) : Option Binary64 :=
  let (num, den) := scaled x.significand y.significand (y.exponent - x.exponent)
  ofRatio? (x.negative != y.negative) num den

/-- The number nearest to a power of ten, if it is finite. -/
def powerOfTen? (n : Nat) : Option Binary64 := ofRatio? false (Nat.pow 10 n) 1

/-- The exponent of the greatest finite power of ten. -/
def greatestPower : Nat := 308

/-- Multiplies by a power of ten.  Only zero may be multiplied by one that is not finite. -/
def scaleUp? (x : Binary64) (n : Nat) : Option Binary64 :=
  if n ≤ greatestPower then (powerOfTen? n).bind x.mul?
  else if x.isZero then some x
  else none

/-- Divides by a power of ten; by a greater one in steps, until nothing is left.  As each step takes
off the greatest finite power, the quotient of the exponents bounds their number. -/
def scaleDown? : Nat → Binary64 → Nat → Option Binary64
  | 0, x, n => (powerOfTen? n).bind x.div?
  | steps + 1, x, n =>
    if n ≤ greatestPower then (powerOfTen? n).bind x.div?
    else if x.isZero then some x
    else
      match (powerOfTen? greatestPower).bind x.div? with
      | some y => scaleDown? steps y (n - greatestPower)
      | none => none

/-- A number times a power of ten, if it is finite. -/
def scaleByTen? (x : Binary64) : Int → Option Binary64
  | .ofNat n => x.scaleUp? n
  | .negSucc n => scaleDown? (n / greatestPower) x (n + 1)

end Binary64

end PipelineEditor
