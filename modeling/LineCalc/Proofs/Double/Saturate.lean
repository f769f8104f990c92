import LineCalc.Proofs.Double.Finite
/-!
# Doubles as 64-bit integers

A double is cut off at its point and drawn to the bounds of 64 bits by comparing doubles.  The whole
part of a double is a double again, so nothing is rounded on the way, and what is left between the
bounds always has 64 bits.

* `Magnitude.exists_units_eq` : a number of few digits, shifted, is a magnitude;
* `Double.exists_trunc_finite` : the whole part of a finite double;
* `Double.saturate?_finite` : a finite double becomes its whole part, drawn to the bounds.
-/
namespace LineCalc

/-! ## Whole parts -/

namespace Magnitude

/-- What has at most 53 bits in front of its trailing zeros is a magnitude. -/
theorem exists_units_eq {k j : Nat} (hk : k < 2 ^ (53 : Nat)) (hj : j ≤ 2045) :
    ∃ m : Magnitude, m.units = k * 2 ^ j := by
  by_cases hzero : k = 0
  · refine ⟨.zero, ?_⟩
    rw [hzero, Nat.zero_mul]
    rfl
  have hlog : k.log2 ≤ 52 := by
    have := (Nat.log2_lt hzero).2 hk
    omega
  -- the mantissa takes up as many zeros as fit its leading bit
  obtain ⟨i, hij, hi, hfull⟩ : ∃ i ≤ j, i + k.log2 ≤ 52 ∧ (i = j ∨ i + k.log2 = 52) :=
    ⟨min j (52 - k.log2), by omega, by omega, by omega⟩
  have hlt : k * 2 ^ i < 2 ^ (53 : Nat) :=
    calc k * 2 ^ i < 2 ^ (k.log2 + 1) * 2 ^ i :=
          Nat.mul_lt_mul_of_pos_right Nat.lt_log2_self (Nat.two_pow_pos i)
      _ = 2 ^ (k.log2 + 1 + i) := (Nat.pow_add _ _ _).symm
      _ ≤ 2 ^ (53 : Nat) := Nat.pow_le_pow_right (by decide) (by omega)
  have hnormal : j - i = 0 ∨ 2 ^ (52 : Nat) ≤ k * 2 ^ i := by
    rcases hfull with rfl | hfull
    · exact .inl (Nat.sub_self i)
    · right
      calc 2 ^ (52 : Nat) = 2 ^ k.log2 * 2 ^ i := by
            rw [← Nat.pow_add, Nat.add_comm k.log2, hfull]
        _ ≤ k * 2 ^ i := Nat.mul_le_mul_right _ (Nat.log2_self_le hzero)
  refine ⟨⟨k * 2 ^ i, j - i, hlt, by omega, hnormal⟩, ?_⟩
  show k * 2 ^ i * 2 ^ (j - i) = k * 2 ^ j
  rw [Nat.mul_assoc, ← Nat.pow_add, Nat.add_sub_cancel' hij]

/-- The whole part of a magnitude is a magnitude. -/
theorem exists_units_eq_whole (m : Magnitude) :
    ∃ m' : Magnitude, m'.units = m.units / unitsPerOne * unitsPerOne := by
  unfold unitsPerOne
  by_cases he : 1074 ≤ m.exponent
  · refine ⟨m, (Nat.div_mul_cancel ?_).symm⟩
    exact Nat.dvd_mul_left_of_dvd (Nat.pow_dvd_pow 2 he) m.mantissa
  · apply exists_units_eq _ (by decide)
    have hsplit : m.units / 2 ^ (1074 : Nat) = m.mantissa / 2 ^ (1074 - m.exponent) := by
      rw [units, ← Nat.sub_add_cancel (Nat.le_of_not_le he), Nat.pow_add]
      rw [Nat.mul_div_mul_right _ _ (Nat.two_pow_pos _)]
      rw [Nat.add_sub_cancel]
    rw [hsplit]
    exact lt_of_le_of_lt (Nat.div_le_self _ _) m.mantissa_lt

end Magnitude

namespace Double

/-- The whole part of a finite double is finite and exact. -/
theorem exists_trunc_finite (s : Bool) (m : Magnitude) :
    ∃ m' : Magnitude, trunc (finite s m) = finite s m' ∧
      m'.units = m.units / unitsPerOne * unitsPerOne := by
  obtain ⟨m', hm'⟩ := m.exists_units_eq_whole
  refine ⟨m', ?_, hm'⟩
  rw [trunc, ← hm', round, Magnitude.round_units]

/-! ## Comparing with the bounds -/

/-- The bounds of 64 bits, as doubles: the lower one is exact, and the upper one is rounded up. -/
theorem exists_ofInt_bounds : ∃ m : Magnitude, m.units = 2 ^ (63 : Nat) * unitsPerOne ∧
    ofInt Int64.maxValue.toInt = finite false m ∧ ofInt Int64.minValue.toInt = finite true m :=
  ⟨⟨2 ^ (52 : Nat), 1085, by decide, by decide, .inr (Nat.le_refl _)⟩, by decide +kernel,
    by decide +kernel, by decide +kernel⟩

/-- Whole numbers of ones are compared as these numbers. -/
theorem le_finite_iff {s t : Bool} {a b : Magnitude} {j k : Nat} (ha : a.units = j * unitsPerOne)
    (hb : b.units = k * unitsPerOne) :
    (finite s a).le (finite t b) ↔ signed s j ≤ signed t k := by
  show decide (signed s a.units ≤ signed t b.units) = true ↔ _
  rw [decide_eq_true_iff, ha, hb, signed_mul, signed_mul]
  exact Int.mul_le_mul_right (Int.natCast_pos.2 unitsPerOne_pos)

/-! ## Drawing to the bounds -/

/-- **Drawing to the bounds is exact.**  A finite double becomes its whole part, or the bound that
this is beyond. -/
theorem saturate?_finite (s : Bool) (m : Magnitude) :
    ∃ i : Int64, (finite s m).saturate? = some i ∧
      i.toInt =
        max (-2 ^ (63 : Nat)) (min (signed s (m.units / unitsPerOne)) (2 ^ (63 : Nat) - 1)) := by
  obtain ⟨m', htrunc, hm'⟩ := exists_trunc_finite s m
  obtain ⟨b, hb, hupper, hlower⟩ := exists_ofInt_bounds
  have hwhole : m'.units / unitsPerOne = m.units / unitsPerOne := by
    rw [hm', Nat.mul_div_cancel _ unitsPerOne_pos]
  generalize m.units / unitsPerOne = n at hm' hwhole
  have hmax : (ofInt Int64.maxValue.toInt).le (trunc (finite s m)) ↔
      2 ^ (63 : Nat) ≤ signed s n := by
    have hsigned : signed false (2 ^ (63 : Nat)) = 2 ^ (63 : Nat) := by decide
    rw [htrunc, hupper, le_finite_iff hb hm', hsigned]
  have hmin : (trunc (finite s m)).le (ofInt Int64.minValue.toInt) ↔
      signed s n ≤ -2 ^ (63 : Nat) := by
    have hsigned : signed true (2 ^ (63 : Nat)) = -2 ^ (63 : Nat) := by decide
    rw [htrunc, hlower, le_finite_iff hm' hb, hsigned]
  rw [saturate?, if_pos (show (finite s m).isFinite = true from rfl)]
  by_cases habove : 2 ^ (63 : Nat) ≤ signed s n
  · rw [if_pos (hmax.2 habove)]
    refine ⟨_, rfl, ?_⟩
    rw [Int64.toInt_maxValue]
    omega
  · rw [if_neg (mt hmax.1 habove)]
    by_cases hbelow : signed s n ≤ -2 ^ (63 : Nat)
    · rw [if_pos (hmin.2 hbelow)]
      refine ⟨_, rfl, ?_⟩
      rw [Int64.toInt_minValue]
      omega
    · have hrange : -2 ^ (63 : Nat) ≤ signed s n ∧ signed s n < 2 ^ (63 : Nat) := by omega
      rw [if_neg (mt hmin.1 hbelow), htrunc, toInt64?, truncate?, hwhole, Option.bind_some,
        if_pos hrange]
      refine ⟨_, rfl, ?_⟩
      rw [Int64.toInt_ofInt_of_le hrange.1 hrange.2]
      omega

/-- What is not finite has no integer. -/
theorem saturate?_eq_none_iff {x : Double} : x.saturate? = none ↔ x.isFinite = false := by
  cases x with
  | nan => exact iff_of_true rfl rfl
  | infinity s => exact iff_of_true rfl rfl
  | finite s m =>
      obtain ⟨i, hi, -⟩ := saturate?_finite s m
      rw [hi]
      exact iff_of_false (by simp) (by simp [isFinite])

end Double

end LineCalc
