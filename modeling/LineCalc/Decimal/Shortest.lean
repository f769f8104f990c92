import LineCalc.Decimal.Basic
/-!
# Shortest decimals

The shortest decimal of a positive double is the one with the fewest digits that reads back as
that double, and among those the nearest to it; a tie goes to the even coefficient.  Only the two
neighbours of the double on each decimal grid can qualify, so they are tried from one digit up.
-/
namespace LineCalc.Decimal

/-- The power of ten of the leading digit of `units` units. -/
def leadingPower (units : Nat) : Int :=
  if unitsPerOne ≤ units then (length (units / unitsPerOne) : Int) - 1
  else -(length ((unitsPerOne - 1) / units) : Int)

/-- `units` units as a quotient in steps of `10 ^ power`. -/
def inSteps (units : Nat) (power : Int) : Nat × Nat :=
  if 0 ≤ power then (units, unitsPerOne * 10 ^ power.toNat)
  else (units * 10 ^ (-power).toNat, unitsPerOne)

/-- The nearest of the decimals with `digits` digits that read back as `m`. -/
def candidate? (m : Magnitude) (digits : Nat) : Option Decimal :=
  let power := leadingPower m.units + 1 - digits
  let (num, den) := inSteps m.units power
  let below := num / den
  let nearer := if Magnitude.roundsUp num den then [below + 1, below] else [below, below + 1]
  (nearer.map (⟨·, power⟩)).find? fun d => d.toMagnitude? == some m

/-- All digits of a magnitude. -/
def exact (m : Magnitude) : Decimal := ⟨m.units * 5 ^ (1074 : Nat), -1074⟩

/-- The shortest decimal of a positive magnitude.  Seventeen digits always suffice to tell
doubles apart. -/
def shortest (m : Magnitude) : Decimal :=
  (((List.range' 1 17).findSome? (candidate? m)).getD (exact m)).strip

end LineCalc.Decimal
