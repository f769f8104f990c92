import LineCalc.Double.Round
import Mathlib.Order.Lattice
/-!
# Facts about rounding

Rounding depends on the value of a quotient only, is exact where it can be, and never passes a
number that is itself a magnitude.

* `Magnitude.round_units` : a magnitude is rounded to itself;
* `Magnitude.round_congr` : equal quotients are rounded the same;
* `Magnitude.round_le`, `Magnitude.le_round` : a quotient below a magnitude is rounded to at most
  that, and one above a power of two to at least that.
-/
namespace LineCalc.Magnitude

/-! ## Units -/

/-- Without units a magnitude is zero. -/
theorem units_eq_zero_iff {m : Magnitude} : m.units = 0 ↔ m = .zero := by
  constructor
  · intro h
    have hmantissa : m.mantissa = 0 := (Nat.mul_eq_zero.1 h).resolve_right (by simp)
    have hexponent : m.exponent = 0 := by
      rcases m.normal with he | hle
      · exact he
      · omega
    cases m
    simp_all [zero]
  · rintro rfl
    rfl

/-- The exponent of a magnitude is that of its units. -/
theorem exponentOf_units (m : Magnitude) : exponentOf m.units = m.exponent := by
  have hlt : m.units < 2 ^ (53 + m.exponent) := by
    rw [Nat.pow_add]
    exact Nat.mul_lt_mul_of_pos_right m.mantissa_lt (Nat.two_pow_pos _)
  by_cases hzero : m.units = 0
  · rw [units_eq_zero_iff.1 hzero]
    decide
  have hlog := (Nat.log2_lt hzero).2 hlt
  unfold exponentOf
  rcases m.normal with he | hle
  · omega
  · have hge : 2 ^ (52 + m.exponent) ≤ m.units := by
      rw [Nat.pow_add]
      exact Nat.mul_le_mul_right _ hle
    have := (Nat.le_log2 hzero).2 hge
    omega

/-- Magnitudes with the same units are the same. -/
theorem units_injective {m m' : Magnitude} (h : m.units = m'.units) : m = m' := by
  have hexponent : m.exponent = m'.exponent := by
    rw [← exponentOf_units, h, exponentOf_units]
  have hmantissa : m.mantissa = m'.mantissa := by
    unfold units at h
    rw [hexponent] at h
    exact Nat.eq_of_mul_eq_mul_right (Nat.two_pow_pos _) h
  cases m
  cases m'
  simp_all

/-- The units of a magnitude are a whole number of steps at every lower exponent. -/
theorem units_eq_mul (m : Magnitude) {e : Nat} (h : e ≤ m.exponent) :
    m.units = m.mantissa * 2 ^ (m.exponent - e) * 2 ^ e := by
  rw [units, Nat.mul_assoc, ← Nat.pow_add, Nat.sub_add_cancel h]

/-- A power of two that is not too great is a magnitude. -/
theorem exists_units_eq_two_pow {k : Nat} (hk : k ≤ 2097) : ∃ m : Magnitude, m.units = 2 ^ k := by
  by_cases h : k ≤ 52
  · refine ⟨⟨2 ^ k, 0, ?_, by decide, .inl rfl⟩, ?_⟩
    · exact Nat.pow_lt_pow_right (by decide) (by omega)
    · simp [units]
  · refine ⟨⟨2 ^ (52 : Nat), k - 52, by decide, by omega, .inr le_rfl⟩, ?_⟩
    show 2 ^ (52 : Nat) * 2 ^ (k - 52) = 2 ^ k
    rw [← Nat.pow_add]
    congr 1
    omega

/-! ## What is rounded to what -/

/-- The units of a mantissa that was carried are those it stands for. -/
theorem units_of_carry {n e : Nat} {hn : n ≤ 2 ^ (53 : Nat)} {h : e = 0 ∨ 2 ^ (52 : Nat) ≤ n}
    {m : Magnitude} (hm : carry n e hn h = some m) : m.units = n * 2 ^ e := by
  unfold carry at hm
  split at hm
  · next hcarry =>
      split at hm
      · cases hm
        show 2 ^ (52 : Nat) * 2 ^ (e + 1) = n * 2 ^ e
        rw [hcarry, Nat.pow_succ]
        omega
      · cases hm
  · split at hm
    · cases hm
      rfl
    · cases hm

/-- A mantissa whose units are at most those of a magnitude can be carried. -/
theorem carry_isSome_of_le {n e : Nat} {hn : n ≤ 2 ^ (53 : Nat)} {h : e = 0 ∨ 2 ^ (52 : Nat) ≤ n}
    {b : Magnitude} (hle : n * 2 ^ e ≤ b.units) (he : e ≤ b.exponent) :
    (carry n e hn h).isSome := by
  have hbound := b.exponent_le
  unfold carry
  split
  · next hcarry =>
      -- a mantissa of all bits would be above the magnitude, had that the same exponent
      have hne : e ≠ b.exponent := by
        rintro rfl
        rw [hcarry] at hle
        have hmantissa := Nat.le_of_mul_le_mul_right hle (Nat.two_pow_pos _)
        exact absurd hmantissa (Nat.not_le.2 b.mantissa_lt)
      rw [dif_pos (by omega)]
      rfl
  · rw [dif_pos (by omega)]
    rfl

/-- The natural number nearest to a quotient; a tie goes to the even one. -/
def nearest (num den : Nat) : Nat := if roundsUp num den then num / den + 1 else num / den

/-- A quotient is rounded up only if it has a remainder. -/
theorem nearest_cases (num : Nat) {den : Nat} (hden : 0 < den) :
    nearest num den = num / den ∨ nearest num den = num / den + 1 ∧ num / den * den < num := by
  unfold nearest
  split
  · next hup =>
      have hmod : num % den ≠ 0 := by
        intro hzero
        simp only [roundsUp, hzero, Bool.or_eq_true, Bool.and_eq_true, decide_eq_true_eq,
          beq_iff_eq] at hup
        omega
      have hsplit := Nat.div_add_mod' num den
      exact .inr ⟨rfl, by omega⟩
  · exact .inl rfl

/-- Rounding takes the nearest mantissa at the exponent of the quotient. -/
theorem exists_round_eq_carry (num den : Nat) :
    ∃ n hn h, n = nearest num (den * 2 ^ exponentOf (num / den)) ∧
      round num den = carry n (exponentOf (num / den)) hn h := by
  unfold round
  extract_lets e whole hlt hle
  split
  · next hup => exact ⟨num / whole + 1, by omega, by omega, (if_pos hup).symm, rfl⟩
  · next hup => exact ⟨num / whole, by omega, hle, (if_neg hup).symm, rfl⟩

/-- A greater number has no lower exponent. -/
theorem exponentOf_mono {q q' : Nat} (h : q ≤ q') : exponentOf q ≤ exponentOf q' := by
  by_cases hq : q = 0
  · rw [hq]
    exact Nat.zero_le _
  · have hlog : q.log2 ≤ q'.log2 :=
      (Nat.le_log2 (by omega)).2 (le_trans (Nat.log2_self_le hq) h)
    exact Nat.sub_le_sub_right hlog 52

/-- What is at most a magnitude has no greater exponent, and no more units at its nearest
mantissa. -/
theorem nearest_mul_le {num den : Nat} (hden : 0 < den) {b : Magnitude}
    (h : num ≤ b.units * den) :
    exponentOf (num / den) ≤ b.exponent ∧
      nearest num (den * 2 ^ exponentOf (num / den)) * 2 ^ exponentOf (num / den) ≤ b.units := by
  have hquotient : num / den ≤ b.units := by
    rw [Nat.div_le_iff_le_mul_add_pred hden, Nat.mul_comm]
    omega
  have he : exponentOf (num / den) ≤ b.exponent := by
    rw [← exponentOf_units]
    exact exponentOf_mono hquotient
  refine ⟨he, ?_⟩
  generalize exponentOf (num / den) = e at he
  -- the units of the magnitude are a whole number of steps at the lower exponent, too
  obtain ⟨c, hc⟩ : ∃ c, b.units = c * 2 ^ e := ⟨_, b.units_eq_mul he⟩
  rw [hc, Nat.mul_assoc, Nat.mul_comm _ den] at h
  have hpos : 0 < den * 2 ^ e := Nat.mul_pos hden (Nat.two_pow_pos e)
  rw [hc]
  apply Nat.mul_le_mul_right
  rcases nearest_cases num hpos with heq | ⟨heq, hlt⟩
  · rw [heq]
    exact Nat.div_le_of_le_mul (by rwa [Nat.mul_comm])
  · rw [heq]
    exact Nat.lt_of_mul_lt_mul_right (Nat.lt_of_lt_of_le hlt h)

/-- **Rounding never passes a magnitude.**  What is at most a magnitude is rounded to at most
that. -/
theorem round_le {num den : Nat} (hden : 0 < den) {b : Magnitude} (h : num ≤ b.units * den) :
    ∃ m, round num den = some m ∧ m.units ≤ b.units := by
  obtain ⟨_, hn, hnormal, rfl, hround⟩ := exists_round_eq_carry num den
  obtain ⟨he, hle⟩ := nearest_mul_le hden h
  have hsome : (carry _ _ hn hnormal).isSome := carry_isSome_of_le hle he
  obtain ⟨m, hm⟩ := Option.isSome_iff_exists.1 hsome
  refine ⟨m, hround.trans hm, ?_⟩
  rw [units_of_carry hm]
  exact hle

/-- What is at least a power of two is rounded to at least that. -/
theorem le_round {num den k : Nat} (hden : 0 < den) (h : 2 ^ k * den ≤ num) {m : Magnitude}
    (hm : round num den = some m) : 2 ^ k ≤ m.units := by
  obtain ⟨_, hn, hnormal, rfl, hround⟩ := exists_round_eq_carry num den
  have hquotient : 2 ^ k ≤ num / den := (Nat.le_div_iff_mul_le hden).2 h
  have hfloor : num / den / 2 ^ exponentOf (num / den) ≤
      nearest num (den * 2 ^ exponentOf (num / den)) := by
    rw [Nat.div_div_eq_div_mul]
    unfold nearest
    split
    · exact Nat.le_succ _
    · exact le_rfl
  rw [units_of_carry (hround.symm.trans hm)]
  refine le_trans ?_ (Nat.mul_le_mul_right _ hfloor)
  by_cases he : exponentOf (num / den) ≤ k
  · have hsteps : 2 ^ (k - exponentOf (num / den)) ≤ num / den / 2 ^ exponentOf (num / den) := by
      rw [Nat.le_div_iff_mul_le (Nat.two_pow_pos _), ← Nat.pow_add, Nat.sub_add_cancel he]
      exact hquotient
    calc 2 ^ k = 2 ^ (k - exponentOf (num / den)) * 2 ^ exponentOf (num / den) := by
          rw [← Nat.pow_add, Nat.sub_add_cancel he]
      _ ≤ _ := Nat.mul_le_mul_right _ hsteps
  · -- with a greater exponent than that, the leading bit of the mantissa is enough
    have hmantissa := le_div_exponentOf (q := num / den) (by omega)
    calc 2 ^ k ≤ 2 ^ (52 + exponentOf (num / den)) := Nat.pow_le_pow_right (by decide) (by omega)
      _ = 2 ^ (52 : Nat) * 2 ^ exponentOf (num / den) := Nat.pow_add _ _ _
      _ ≤ _ := Nat.mul_le_mul_right _ hmantissa

/-! ## Exact results -/

/-- Scaling both numbers changes nothing. -/
theorem round_mul_right (num den : Nat) {k : Nat} (hk : 0 < k) :
    round (num * k) (den * k) = round num den := by
  have hwhole : ∀ e, den * k * 2 ^ e = den * 2 ^ e * k := fun e => Nat.mul_right_comm den k _
  have hup : ∀ whole, roundsUp (num * k) (whole * k) = roundsUp num whole := by
    intro whole
    have hlt : whole * k < 2 * (num % whole * k) ↔ whole < 2 * (num % whole) := by
      rw [← Nat.mul_assoc]
      exact Nat.mul_lt_mul_right hk
    have heq : 2 * (num % whole * k) = whole * k ↔ 2 * (num % whole) = whole := by
      rw [← Nat.mul_assoc]
      exact Nat.mul_left_inj (by omega)
    simp only [roundsUp, Nat.mul_mod_mul_right, Nat.mul_div_mul_right _ _ hk, hlt, beq_eq_decide,
      heq]
  unfold round
  simp only [Nat.mul_div_mul_right _ _ hk, hwhole, hup]

/-- **Rounding sees the value of a quotient only.** -/
theorem round_congr {num den num' den' : Nat} (hden : 0 < den) (hden' : 0 < den')
    (h : num * den' = num' * den) : round num den = round num' den' := by
  rw [← round_mul_right num den hden', h, Nat.mul_comm den, round_mul_right num' den' hden]

/-- **Rounding is exact on magnitudes.** -/
theorem round_units (m : Magnitude) : round m.units 1 = some m := by
  obtain ⟨r, hr, -⟩ := round_le Nat.one_pos (b := m) (le_of_eq (Nat.mul_one _).symm)
  obtain ⟨_, hn, hnormal, rfl, hround⟩ := exists_round_eq_carry m.units 1
  rw [hr]
  congr 1
  apply units_injective
  rw [units_of_carry (hround.symm.trans hr), Nat.div_one, Nat.one_mul, exponentOf_units]
  have hpos := Nat.two_pow_pos m.exponent
  rcases nearest_cases m.units hpos with heq | ⟨-, hlt⟩
  · rw [heq, units, Nat.mul_div_cancel _ hpos]
  · exact absurd hlt (by rw [units, Nat.mul_div_cancel _ hpos]; exact lt_irrefl _)

end LineCalc.Magnitude
