import PipelineEditor.Number.Binary64

/-!
# The fewest decimal digits that read back

Every number has an interval of reals that round to it: half a step down to half a step up, the
ends included when its significand is even.  The number is written with the fewest decimal
digits that name a point of that interval, and of the candidates with that many digits with the
nearest one.  For each count of digits only the two neighbours of the number on that decimal
grid need to be looked at, and seventeen digits are always enough.

* `shortestDecimal` — the digits, first one not zero, and the decimal exponent of the first;
* `Grid.pick?` — what a grid of one spacing offers, in whole numbers of its spacing.
-/

namespace PipelineEditor.Binary64

/-- Decimal digits `d₀ d₁ …` with the value `d₀.d₁… · 10 ^ exponent`. -/
structure Decimal where
  digits : List Char
  exponent : Int
  deriving DecidableEq, Repr

/-- A decimal grid laid over a number: a grid point `c` has the value `c · step`, the number
has the value `middle`, and the reals that round to it lie between `low` and `high`, all in one
common unit. -/
structure Grid where
  step : Nat
  low : Nat
  middle : Nat
  high : Nat
  /-- Whether the two ends of the interval round to the number. -/
  closed : Bool

namespace Grid

/-- Whether a grid point rounds to the number. -/
def holds (g : Grid) (c : Nat) : Bool :=
  if g.closed then g.low ≤ c * g.step && c * g.step ≤ g.high
  else g.low < c * g.step && c * g.step < g.high

/-- The nearer of the number's two neighbours on the grid that round to it, if one does. -/
def pick? (g : Grid) : Option Nat :=
  let below := g.middle / g.step
  let above := below + 1
  match g.holds below, g.holds above with
  | false, false => none
  | true, false => some below
  | false, true => some above
  | true, true =>
    let down := g.middle - below * g.step
    let up := above * g.step - g.middle
    if down < up then some below
    else if up < down then some above
    else if below % 2 = 0 then some below else some above

end Grid

/-- The grid of spacing `10 ^ u` over `significand · 2 ^ exponent`.  A quarter of the number's
own step is the unit before scaling, so that the ends of the interval are whole. -/
def gridOver (x : Binary64) (u : Int) : Grid :=
  let two : Int := x.exponent - 2
  let step :=
    (if 0 ≤ u then Nat.pow 10 u.toNat else 1) * (if two < 0 then Nat.pow 2 (-two).toNat else 1)
  let unit :=
    (if 0 ≤ two then Nat.pow 2 two.toNat else 1) * (if u < 0 then Nat.pow 10 (-u).toNat else 1)
  let under := if x.significand = Nat.pow 2 52 && decide (leastExponent < x.exponent) then 1 else 2
  { step := step
    low := (4 * x.significand - under) * unit
    middle := 4 * x.significand * unit
    high := (4 * x.significand + 2) * unit
    closed := x.significand % 2 == 0 }

/-- The exponent of the first decimal digit of `num / den`. -/
def decimalExponent (num den : Nat) : Int :=
  if den ≤ num then (decimalLength (num / den) : Int) - 1
  else
    match (List.range (decimalLength den + 1)).find? fun k => den ≤ num * Nat.pow 10 k with
    | some k => -(k : Int)
    | none => 0

/-- The digits of a grid point without its trailing zeros. -/
def significantDigits (c : Nat) : List Char :=
  ((Nat.toDigits 10 c).reverse.dropWhile (· == '0')).reverse

/-- The shortest decimal that reads back as a number other than zero. -/
def shortestDecimal (x : Binary64) : Decimal :=
  let (num, den) := scaled x.significand 1 (-x.exponent)
  let e := decimalExponent num den
  let found := (List.range 17).findSome? fun (n : Nat) =>
    let u : Int := e - n
    ((gridOver x u).pick?).map fun c => (c, u)
  match found with
  | some (c, u) => ⟨significantDigits c, u + decimalLength c - 1⟩
  | none => ⟨significantDigits num, e⟩

end PipelineEditor.Binary64
