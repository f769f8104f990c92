import LineCalc.Proofs.Double.Finite
import Mathlib.Data.Rat.Floor
import Mathlib.Tactic.Ring
/-!
# The values of doubles

A finite double stands for a rational number, which its bits tell.

* `Double.value?` : the value of a double;
* `Double.valueOfBits?`, `Double.value?_ofBits` : what 64 bits stand for, and that the double made
  of them has that value;
* `Double.towardZero_rational` : the whole part of a value.
-/
namespace LineCalc.Double

/-- The number that a magnitude stands for, with the given sign. -/
def rational (negative : Bool) (m : Magnitude) : ℚ := (signed negative m.units : ℚ) / unitsPerOne

/-- The number that a double stands for, if it is one. -/
def value? : Double → Option ℚ
  | finite s m => some (rational s m)
  | _ => none

/-- There are units in one. -/
theorem unitsPerOne_pos_rat : (0 : ℚ) < unitsPerOne := Nat.cast_pos.2 unitsPerOne_pos

/-- A sign multiplies. -/
theorem cast_signed (s : Bool) (n : Nat) : ((signed s n : ℤ) : ℚ) = (if s then -1 else 1) * n := by
  unfold signed
  split
  · push_cast
    ring
  · push_cast
    ring

/-- A rational number without its fraction. -/
def towardZero (q : ℚ) : ℤ := if q < 0 then ⌈q⌉ else ⌊q⌋

/-- What is less than one has no whole part. -/
theorem towardZero_eq_zero {q : ℚ} (h : |q| < 1) : towardZero q = 0 := by
  obtain ⟨hlo, hhi⟩ := abs_lt.1 h
  unfold towardZero
  split
  · next hneg => exact Int.ceil_eq_zero_iff.2 ⟨hlo, hneg.le⟩
  · next hneg => exact Int.floor_eq_zero_iff.2 ⟨not_lt.1 hneg, hhi⟩

/-- The whole part of a value is that of its units. -/
theorem towardZero_rational (s : Bool) (m : Magnitude) :
    towardZero (rational s m) = signed s (m.units / unitsPerOne) := by
  have hfloor : ⌊(m.units : ℚ) / unitsPerOne⌋ = (m.units / unitsPerOne : ℕ) := by
    rw [Int.natCast_div]
    exact Rat.floor_intCast_div_natCast m.units unitsPerOne
  have hnonneg : 0 ≤ (m.units : ℚ) / unitsPerOne :=
    div_nonneg (Nat.cast_nonneg _) unitsPerOne_pos_rat.le
  cases s with
  | false =>
      have hvalue : rational false m = (m.units : ℚ) / unitsPerOne := rfl
      rw [hvalue, towardZero, if_neg (not_lt.2 hnonneg), hfloor]
      rfl
  | true =>
      have hvalue : rational true m = -((m.units : ℚ) / unitsPerOne) := by
        rw [rational, cast_signed, if_pos rfl]
        ring
      rw [hvalue, towardZero]
      split
      · rw [Int.ceil_neg, hfloor]
        rfl
      · next hzero =>
          -- a negative zero has no whole part of its own
          have hzero : (m.units : ℚ) / unitsPerOne = 0 := by linarith
          rw [hzero, Int.floor_zero] at hfloor
          rw [hzero, neg_zero, Int.floor_zero, signed, if_pos rfl, ← hfloor, neg_zero]

/-! ## Bit patterns -/

/-- The number that 64 bits stand for: a bit for the sign, eleven for the exponent and 52 for the
fraction.  The greatest exponent is left to what is no finite number, and with the least one the
mantissa has no leading bit. -/
def valueOfBits? (bits : UInt64) : Option ℚ :=
  let sign : ℚ := if bits.toNat / 2 ^ (63 : Nat) = 1 then -1 else 1
  let exponent := bits.toNat / 2 ^ (52 : Nat) % 2 ^ (11 : Nat)
  let fraction := bits.toNat % 2 ^ (52 : Nat)
  if exponent = 2047 then none
  else if exponent = 0 then some (sign * fraction * 2 ^ (-1074 : ℤ))
  else some (sign * (2 ^ 52 + fraction) * 2 ^ ((exponent : ℤ) - 1075))

/-- The value of a magnitude, from its mantissa and its exponent. -/
theorem rational_eq (s : Bool) (m : Magnitude) :
    rational s m = (if s then -1 else 1) * m.mantissa * 2 ^ ((m.exponent : ℤ) - 1074) := by
  have hpow : ∀ k : ℕ, ((2 ^ k : ℕ) : ℚ) = 2 ^ (k : ℤ) := by
    intro k
    rw [Nat.cast_pow, Nat.cast_ofNat, zpow_natCast]
  -- named, so that the power is not computed
  obtain ⟨k, hk⟩ : ∃ k : ℕ, k = 1074 := ⟨_, rfl⟩
  have hunits : (unitsPerOne : ℚ) = 2 ^ (k : ℤ) := by
    rw [unitsPerOne, ← hk, hpow]
  have hcast : (1074 : ℤ) = k := by omega
  rw [rational, cast_signed, Magnitude.units, Nat.cast_mul, hpow, hunits, hcast,
    zpow_sub₀ two_ne_zero]
  ring

/-- **Bits stand for the value of their double.** -/
theorem value?_ofBits (bits : UInt64) : (ofBits bits).value? = valueOfBits? bits := by
  have hlt : bits.toNat < 2 ^ (64 : Nat) := bits.toNat_lt
  -- the fields of the bits, in the lower 63 of them
  have hsign : bits.toNat / 2 ^ (63 : Nat) = 1 ↔ 2 ^ (63 : Nat) ≤ bits.toNat := by omega
  have hexponent : bits.toNat / 2 ^ (52 : Nat) % 2 ^ (11 : Nat) =
      bits.toNat % 2 ^ (63 : Nat) / 2 ^ (52 : Nat) := by omega
  have hfraction : bits.toNat % 2 ^ (52 : Nat) =
      bits.toNat % 2 ^ (63 : Nat) % 2 ^ (52 : Nat) := by omega
  unfold valueOfBits?
  simp only [hsign, hexponent, hfraction]
  unfold ofBits
  extract_lets low negative fraction hf
  have hnegative : (if decide negative then -1 else 1 : ℚ) =
      if 2 ^ (63 : Nat) ≤ bits.toNat then -1 else 1 := by
    simp only [decide_eq_true_eq, negative]
  split
  · next hz =>
      have hleast : low / 2 ^ (52 : Nat) = 0 := Nat.div_eq_of_lt hz
      rw [if_neg (by omega), if_pos hleast, value?, rational_eq, hnegative, Nat.mod_eq_of_lt hz]
      rfl
  · next hz =>
      split
      · next he =>
          have hbiased : low / 2 ^ (52 : Nat) ≠ 2047 ∧ low / 2 ^ (52 : Nat) ≠ 0 := by omega
          rw [if_neg hbiased.1, if_neg hbiased.2, value?, rational_eq, hnegative]
          have hexponent : ((low / 2 ^ (52 : Nat) - 1 : ℕ) : ℤ) - 1074 =
              (low / 2 ^ (52 : Nat) : ℕ) - 1075 := by omega
          rw [hexponent, Nat.cast_add, Nat.cast_pow, Nat.cast_ofNat, add_comm]
      · next he =>
          have hgreatest : low / 2 ^ (52 : Nat) = 2047 := by omega
          rw [if_pos hgreatest]
          split <;> rfl

end LineCalc.Double
