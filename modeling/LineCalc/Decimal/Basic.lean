import LineCalc.Double.Round
/-!
# Decimal numbers

A decimal number is a natural coefficient and a power of ten.  Reading a double from decimal text
rounds such a number once.
-/
namespace LineCalc

/-- The number `coefficient · 10 ^ exponent`. -/
structure Decimal where
  coefficient : Nat
  exponent : Int
  deriving DecidableEq, Repr

namespace Decimal

/-- The decimal as a quotient of natural numbers of units. -/
def quotient (d : Decimal) : Nat × Nat :=
  if 0 ≤ d.exponent then (d.coefficient * 10 ^ d.exponent.toNat * unitsPerOne, 1)
  else (d.coefficient * unitsPerOne, 10 ^ (-d.exponent).toNat)

/-- The magnitude nearest to the decimal, or `none` if that is too large. -/
def toMagnitude? (d : Decimal) : Option Magnitude := Magnitude.round d.quotient.1 d.quotient.2

/-- The same number without zeros at the end of its coefficient. -/
def strip (d : Decimal) : Decimal :=
  if d.coefficient ≠ 0 ∧ d.coefficient % 10 = 0 then
    strip ⟨d.coefficient / 10, d.exponent + 1⟩
  else d
termination_by d.coefficient
decreasing_by omega

/-- How many decimal digits a number has. -/
def length (n : Nat) : Nat := if n < 10 then 1 else length (n / 10) + 1
termination_by n

end Decimal

end LineCalc
