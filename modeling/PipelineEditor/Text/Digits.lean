/-!
# Digits of a base

Numbers stand in the formats of this library in bases up to sixteen: in escapes for characters,
and in the numerals of configuration files.  Letters count as digits in both cases.

* `Text.numberOf?` — **the number that digits of a base name**;
* `Text.charOfCode?` — the character with a code, which surrogates and numbers beyond the last
  code point do not have.
-/

namespace PipelineEditor.Text

/-- The value of a digit, up to fifteen. -/
def digitValue? (c : Char) : Option Nat :=
  if c.isDigit then some (c.toNat - 48)
  else if 'a' ≤ c ∧ c ≤ 'f' then some (c.toNat - 87)
  else if 'A' ≤ c ∧ c ≤ 'F' then some (c.toNat - 55)
  else none

/-- The value of a digit of a base. -/
def digitOf? (base : Nat) (c : Char) : Option Nat := (digitValue? c).filter fun d => decide (d < base)

/-- The number that digits of a base name; no digits name zero. -/
def numberOf? (base : Nat) (digits : List Char) : Option Nat :=
  digits.foldl (fun n c => do return base * (← n) + (← digitOf? base c)) (some 0)

/-- The character with a code. -/
def charOfCode? (n : Nat) : Option Char :=
  if n < 0xD800 ∨ (0xE000 ≤ n ∧ n < 0x110000) then some (Char.ofNat n) else none

end PipelineEditor.Text
