/-!
# Doubles

A double is a number of binary64: a sign, a 53-bit mantissa and a power of two, or an infinity,
or not a number.  Finite doubles are counted in *units* of `2 ^ -1074`, the smallest positive
one, so that every finite double is an integer number of units and exact arithmetic on doubles is
arithmetic on natural numbers.
-/

/- Powers are those of core, whatever other instances are at hand, so that a definition means the
same wherever it is read. -/
attribute [instance (2000)] instPowNat

namespace LineCalc

/-- How many units make one. -/
def unitsPerOne : Nat := 2 ^ (1074 : Nat)

/-- The absolute value of a finite double: `mantissa · 2 ^ exponent` units.  The mantissa has its
leading bit, unless the exponent is the least one. -/
structure Magnitude where
  mantissa : Nat
  exponent : Nat
  mantissa_lt : mantissa < 2 ^ (53 : Nat)
  exponent_le : exponent ≤ 2045
  normal : exponent = 0 ∨ 2 ^ (52 : Nat) ≤ mantissa
  deriving DecidableEq

/-- The number of units of a magnitude. -/
def Magnitude.units (m : Magnitude) : Nat := m.mantissa * 2 ^ m.exponent

/-- The magnitude of zero. -/
def Magnitude.zero : Magnitude := ⟨0, 0, by decide, by decide, .inl rfl⟩

/-- A number of binary64. -/
inductive Double where
  | nan
  | infinity (negative : Bool)
  | finite (negative : Bool) (magnitude : Magnitude)
  deriving DecidableEq

namespace Double

/-- Zero with its sign clear. -/
def zero : Double := finite false .zero

/-- Whether a double is a number with finitely many units. -/
def isFinite : Double → Bool
  | finite _ _ => true
  | _ => false

/-- The integer `n` with the given sign. -/
def signed (negative : Bool) (n : Nat) : Int := if negative then -n else n

/-! ## Bit patterns -/

/-- The sign bit of a bit pattern. -/
def signBit (negative : Bool) : Nat := if negative then 2 ^ (63 : Nat) else 0

/-- The 64 bits of a double: sign, biased exponent, fraction.  Counting the exponent from the
least one makes exponent and mantissa add up to the lower 63 bits. -/
def toBits : Double → UInt64
  | nan => 0x7ff8000000000001
  | infinity s => UInt64.ofNat (signBit s + 2047 * 2 ^ (52 : Nat))
  | finite s m => UInt64.ofNat (signBit s + (m.exponent * 2 ^ (52 : Nat) + m.mantissa))

/-- The double with the given bits; all patterns of no number give the same value. -/
def ofBits (bits : UInt64) : Double :=
  let low := bits.toNat % 2 ^ (63 : Nat)
  let negative := 2 ^ (63 : Nat) ≤ bits.toNat
  let fraction := low % 2 ^ (52 : Nat)
  have hf : fraction < 2 ^ (52 : Nat) := Nat.mod_lt _ (by decide)
  if hz : low < 2 ^ (52 : Nat) then
    finite negative ⟨low, 0, by omega, by omega, .inl rfl⟩
  else if he : low < 2047 * 2 ^ (52 : Nat) then
    finite negative
      ⟨fraction + 2 ^ (52 : Nat), low / 2 ^ (52 : Nat) - 1, by omega, by omega, .inr (by omega)⟩
  else if low = 2047 * 2 ^ (52 : Nat) then infinity negative
  else nan

end Double

end LineCalc
