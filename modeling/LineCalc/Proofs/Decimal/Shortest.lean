import LineCalc.Decimal.Shortest
import LineCalc.Proofs.Double.Finite
import LineCalc.Proofs.Text.Digits
import Mathlib.Tactic.Ring
/-!
# The shortest decimal

The shortest decimal of a magnitude is read back as that magnitude, and its leading digit is not
far from the point.

* `Decimal.toMagnitude?_mul_pow`, `Decimal.toMagnitude?_strip` : zeros at the end of a coefficient
  do not matter;
* `Decimal.toMagnitude?_shortest` : **shortest decimals tell magnitudes apart**;
* `Decimal.natAbs_order_shortest_lt` : the power of ten of the leading digit has few digits itself.
-/
namespace LineCalc.Decimal

/-! ## Decimals by their value -/

/-- The quotient of a decimal, without a case for the sign of its exponent. -/
theorem quotient_eq (d : Decimal) : d.quotient =
    (d.coefficient * 10 ^ d.exponent.toNat * unitsPerOne, 10 ^ (-d.exponent).toNat) := by
  unfold quotient
  split
  · next h =>
      have hzero : (-d.exponent).toNat = 0 := by omega
      rw [hzero, Nat.pow_zero]
  · next h =>
      have hzero : d.exponent.toNat = 0 := by omega
      rw [hzero, Nat.pow_zero, Nat.mul_one]

/-- **Zeros at the end do not matter**: a power of ten may be moved into the coefficient. -/
theorem toMagnitude?_mul_pow (c : Nat) (e : Int) (k : Nat) :
    toMagnitude? ⟨c * 10 ^ k, e - k⟩ = toMagnitude? ⟨c, e⟩ := by
  unfold toMagnitude?
  rw [quotient_eq, quotient_eq]
  apply Magnitude.round_congr (Nat.pow_pos (by decide)) (Nat.pow_pos (by decide))
  have hexponents : k + (e - k).toNat + (-e).toNat = e.toNat + (-(e - k)).toNat := by omega
  calc c * 10 ^ k * 10 ^ (e - k).toNat * unitsPerOne * 10 ^ (-e).toNat
      = c * 10 ^ (k + (e - k).toNat + (-e).toNat) * unitsPerOne := by ring
    _ = c * 10 ^ (e.toNat + (-(e - k)).toNat) * unitsPerOne := by rw [hexponents]
    _ = c * 10 ^ e.toNat * unitsPerOne * 10 ^ (-(e - k)).toNat := by ring

/-- Stripping zeros keeps the magnitude. -/
theorem toMagnitude?_strip (d : Decimal) : d.strip.toMagnitude? = d.toMagnitude? := by
  induction d using strip.induct with
  | case1 d h ih =>
      have hten : d.coefficient = d.coefficient / 10 * 10 ^ (1 : Nat) := by omega
      have hexponent : d.exponent = d.exponent + 1 - (1 : Nat) := by omega
      rw [strip, if_pos h, ih, ← toMagnitude?_mul_pow, ← hten, ← hexponent]
  | case2 d h => rw [strip, if_neg h]

/-- The power of ten of the leading digit. -/
def order (d : Decimal) : Int := d.exponent + length d.coefficient - 1

/-- Stripping zeros keeps the place of the leading digit. -/
theorem order_strip (d : Decimal) : d.strip.order = d.order := by
  induction d using strip.induct with
  | case1 d h ih =>
      rw [strip, if_pos h, ih]
      have hlength : length d.coefficient = length (d.coefficient / 10) + 1 := by
        rw [length, if_neg (by omega)]
      simp only [order, hlength]
      omega
  | case2 d h => rw [strip, if_neg h]

/-! ## What is read back -/

/-- All digits of a magnitude are read back as that. -/
theorem toMagnitude?_exact (m : Magnitude) : (exact m).toMagnitude? = some m := by
  rw [← Magnitude.round_units m]
  unfold toMagnitude?
  rw [quotient_eq]
  apply Magnitude.round_congr (Nat.pow_pos (by decide)) Nat.one_pos
  -- the exponent has a name, so that its powers are not computed
  obtain ⟨k, hk⟩ : ∃ k : Nat, k = 1074 := ⟨_, rfl⟩
  have hexact : exact m = ⟨m.units * 5 ^ k, -k⟩ := by rw [hk]; rfl
  have hunits : unitsPerOne = 2 ^ k := by rw [hk, unitsPerOne]
  have hplus : (-(k : Int)).toNat = 0 := by omega
  have hminus : (- -(k : Int)).toNat = k := by omega
  rw [hexact, hunits, hplus, hminus]
  calc m.units * 5 ^ k * 10 ^ (0 : Nat) * 2 ^ k * 1
      = m.units * (5 ^ k * 2 ^ k) := by ring
    _ = m.units * 10 ^ k := by rw [← Nat.mul_pow]

/-- What a candidate is: a decimal at its power of ten that is read back. -/
theorem of_candidate?_eq_some {m : Magnitude} {digits : Nat} {d : Decimal}
    (h : candidate? m digits = some d) : d.toMagnitude? = some m ∧
      d.exponent = leadingPower m.units + 1 - digits ∧
      d.coefficient ≤ (inSteps m.units d.exponent).1 / (inSteps m.units d.exponent).2 + 1 := by
  unfold candidate? at h
  generalize leadingPower m.units + 1 - (digits : Int) = power at h ⊢
  simp only at h
  have hread := List.find?_some h
  rw [beq_iff_eq] at hread
  obtain ⟨c, hc, rfl⟩ := List.mem_map.1 (List.mem_of_find?_eq_some h)
  refine ⟨hread, rfl, ?_⟩
  show c ≤ (inSteps m.units power).1 / (inSteps m.units power).2 + 1
  split at hc
  · simp only [List.mem_cons, List.not_mem_nil, or_false] at hc
    omega
  · simp only [List.mem_cons, List.not_mem_nil, or_false] at hc
    omega

/-- The shortest decimal is a candidate, or has all digits. -/
theorem shortest_cases (m : Magnitude) :
    (∃ digits d, digits ≤ 17 ∧ candidate? m digits = some d ∧ shortest m = d.strip) ∨
      shortest m = (exact m).strip := by
  unfold shortest
  cases h : (List.range' 1 17).findSome? (candidate? m) with
  | none => exact .inr rfl
  | some d =>
      obtain ⟨digits, hmem, hd⟩ := List.exists_of_findSome?_eq_some h
      have hle := (List.mem_range'_1.1 hmem).2
      exact .inl ⟨digits, d, by omega, hd, rfl⟩

/-- **Shortest decimals tell magnitudes apart.**  The shortest decimal of a magnitude is read back
as that. -/
theorem toMagnitude?_shortest (m : Magnitude) : (shortest m).toMagnitude? = some m := by
  rcases shortest_cases m with ⟨digits, d, -, hd, heq⟩ | heq
  · rw [heq, toMagnitude?_strip]
    exact (of_candidate?_eq_some hd).1
  · rw [heq, toMagnitude?_strip]
    exact toMagnitude?_exact m

/-! ## Where the leading digit is -/

/-- There are fewer units than a power of ten. -/
theorem exists_units_lt (m : Magnitude) : ∃ k, 0 < k ∧ k ≤ 2098 ∧ m.units < 10 ^ k := by
  refine ⟨53 + m.exponent, by omega, ?_, ?_⟩
  · have := m.exponent_le
    omega
  · calc m.units < 2 ^ (53 : Nat) * 2 ^ m.exponent :=
          Nat.mul_lt_mul_of_pos_right m.mantissa_lt (Nat.two_pow_pos _)
      _ = 2 ^ (53 + m.exponent) := (Nat.pow_add _ _ _).symm
      _ ≤ 10 ^ (53 + m.exponent) := Nat.pow_le_pow_left (by decide) _

/-- So are the units of one. -/
theorem exists_unitsPerOne_le : ∃ k, 0 < k ∧ k ≤ 1074 ∧ unitsPerOne ≤ 10 ^ k := by
  obtain ⟨k, hk⟩ : ∃ k : Nat, k = 1074 := ⟨_, rfl⟩
  refine ⟨k, by omega, by omega, ?_⟩
  rw [unitsPerOne, ← hk]
  exact Nat.pow_le_pow_left (by decide) k

/-- The leading digit of a magnitude is not far from the point. -/
theorem natAbs_leadingPower_le (m : Magnitude) : (leadingPower m.units).natAbs ≤ 2098 := by
  unfold leadingPower
  split
  · obtain ⟨k, hk, hle, hlt⟩ := exists_units_lt m
    have hlength := length_le hk (Nat.lt_of_le_of_lt (Nat.div_le_self m.units unitsPerOne) hlt)
    omega
  · obtain ⟨k, hk, hle, hle'⟩ := exists_unitsPerOne_le
    have hpos := Double.unitsPerOne_pos
    have hquotient : (unitsPerOne - 1) / m.units < unitsPerOne :=
      Nat.lt_of_le_of_lt (Nat.div_le_self _ _) (Nat.sub_lt hpos Nat.one_pos)
    have hlength := length_le hk (Nat.lt_of_lt_of_le hquotient hle')
    omega

/-- The leading digit of a decimal is not far from the point, if its last one is not. -/
theorem natAbs_order_lt {d : Decimal} {k : Nat} (hk : k ≤ 10000) (hd : d.coefficient < 10 ^ (k + 1))
    (he : d.exponent.natAbs ≤ 10000) : d.order.natAbs < 10 ^ (5 : Nat) := by
  have hpos := length_pos d.coefficient
  have hle := length_le (Nat.succ_pos k) hd
  unfold order
  omega

/-- The steps of a power of ten that fit some units are fewer than another power. -/
theorem inSteps_div_lt {units k : Nat} (power : Int) (h : units < 10 ^ k) :
    (inSteps units power).1 / (inSteps units power).2 + 1 < 10 ^ (k + (-power).toNat + 1) := by
  have hnum : (inSteps units power).1 ≤ units * 10 ^ (-power).toNat := by
    unfold inSteps
    split
    · exact Nat.le_mul_of_pos_right _ (Nat.pow_pos (by decide))
    · exact le_rfl
  have hlt : units * 10 ^ (-power).toNat < 10 ^ (k + (-power).toNat) := by
    rw [Nat.pow_add]
    exact Nat.mul_lt_mul_of_pos_right h (Nat.pow_pos (by decide))
  have hquotient := Nat.div_le_self (inSteps units power).1 (inSteps units power).2
  have hpos : 0 < 10 ^ (k + (-power).toNat) := Nat.pow_pos (by decide)
  rw [Nat.pow_succ]
  omega

/-- **The leading digit of a shortest decimal is not far from the point**: five digits are enough
for its power of ten. -/
theorem natAbs_order_shortest_lt (m : Magnitude) : (shortest m).order.natAbs < 10 ^ (5 : Nat) := by
  obtain ⟨k, hk, hle, hlt⟩ := exists_units_lt m
  rcases shortest_cases m with ⟨digits, d, hdigits, hd, heq⟩ | heq
  · obtain ⟨-, hexponent, hcoefficient⟩ := of_candidate?_eq_some hd
    have hpower := natAbs_leadingPower_le m
    have hsteps := inSteps_div_lt d.exponent hlt
    rw [heq, order_strip]
    apply natAbs_order_lt _ (Nat.lt_of_le_of_lt hcoefficient hsteps)
    · omega
    · omega
  · rw [heq, order_strip]
    obtain ⟨j, hj⟩ : ∃ j : Nat, j = 1074 := ⟨_, rfl⟩
    have hexact : exact m = ⟨m.units * 5 ^ j, -j⟩ := by rw [hj]; rfl
    have hcoefficient : m.units * 5 ^ j < 10 ^ (k + j + 1) := by
      calc m.units * 5 ^ j < 10 ^ k * 10 ^ j :=
            Nat.mul_lt_mul_of_lt_of_le hlt (Nat.pow_le_pow_left (by decide) j)
              (Nat.pow_pos (by decide))
        _ = 10 ^ (k + j) := (Nat.pow_add _ _ _).symm
        _ ≤ 10 ^ (k + j + 1) := Nat.pow_le_pow_right (by decide) (Nat.le_succ _)
    rw [hexact]
    apply natAbs_order_lt _ hcoefficient
    · simp only
      omega
    · omega

end LineCalc.Decimal
