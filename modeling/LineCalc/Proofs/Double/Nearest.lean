import LineCalc.Proofs.Double.Value
import Mathlib.Tactic.FieldSimp
import Mathlib.Tactic.Linarith
/-!
# Rounding to the nearest double

Rounding takes the double nearest to a quotient, and of two nearest ones that with the even
mantissa.  This says which double it is, as between two doubles with even mantissas there is always
another one.

* `Magnitude.abs_round_sub_le` : no magnitude is nearer than the rounded one;
* `Magnitude.round_mono` : greater quotients are rounded to greater magnitudes, or to the same;
* `Double.RoundsTo`, `Double.roundsTo_round` : the rule for doubles, and that rounding follows it;
* `Double.RoundsTo.unique` : at most one number follows the rule;
* `Double.exists_roundsTo_ofInt` : an integer is rounded to an integer.
-/
namespace LineCalc

/-! ## Nearest magnitudes -/

namespace Magnitude

/-- The nearest natural number to a quotient is at least as near as any integer, and even if another
one is as near. -/
theorem abs_nearest_sub_le (num : Nat) {den : Nat} (hden : 0 < den) (c : ℤ) :
    |(nearest num den * den : ℤ) - num| ≤ |c * den - num| ∧
      (c ≠ nearest num den → |(nearest num den * den : ℤ) - num| = |c * den - num| →
        nearest num den % 2 = 0) := by
  have hnum : (num : ℤ) = (num / den : ℕ) * den + (num % den : ℕ) := by
    exact_mod_cast (Nat.div_add_mod' num den).symm
  have hmod : num % den < den := Nat.mod_lt num hden
  have hdennonneg : (0 : ℤ) ≤ den := Int.natCast_nonneg den
  generalize hf : num / den = f at hnum
  generalize hr : num % den = r at hnum hmod
  -- how far the integers on both sides of the quotient are away, at least
  have hbelow : ∀ k : ℤ, c ≤ f - k → k * den + r ≤ |c * den - num| := by
    intro k hk
    have hle := mul_le_mul_of_nonneg_right hk hdennonneg
    refine le_trans ?_ (neg_le_abs _)
    linarith
  have habove : ∀ k : ℤ, f + k ≤ c → k * den - r ≤ |c * den - num| := by
    intro k hk
    have hle := mul_le_mul_of_nonneg_right hk hdennonneg
    refine le_trans ?_ (le_abs_self _)
    linarith
  have hfloor : |(f * den : ℤ) - num| = r := by
    rw [hnum, sub_add_cancel_left, abs_neg, Nat.abs_cast]
  have hceiling : |((f + 1 : ℕ) * den : ℤ) - num| = den - r := by
    have hsub : ((f + 1 : ℕ) * den : ℤ) - num = den - r := by
      rw [hnum]
      push_cast
      ring
    rw [hsub, abs_of_nonneg (by omega)]
  unfold nearest
  split
  · next hup =>
      simp only [roundsUp, hf, hr, Bool.or_eq_true, Bool.and_eq_true, decide_eq_true_eq,
        beq_iff_eq] at hup
      rw [hf, hceiling]
      rcases le_or_gt c f with hle | hgt
      · have := hbelow 0 (by omega)
        omega
      · have h₁ := habove 1 (by omega)
        refine ⟨by omega, fun hne heq => ?_⟩
        have h₂ := habove 2 (by omega)
        omega
  · next hup =>
      simp only [roundsUp, hf, hr, Bool.or_eq_true, Bool.and_eq_true, decide_eq_true_eq,
        beq_iff_eq, not_or, not_and] at hup
      rw [hf, hfloor]
      rcases le_or_gt c f with hle | hgt
      · have h₀ := hbelow 0 (by omega)
        refine ⟨by omega, fun hne heq => ?_⟩
        have h₁ := hbelow 1 (by omega)
        omega
      · have := habove 1 (by omega)
        omega

/-- A magnitude is less than the least full mantissa at any greater exponent. -/
theorem units_lt_of_exponent_lt {m : Magnitude} {e : Nat} (h : m.exponent < e) :
    m.units < 2 ^ (52 : Nat) * 2 ^ e :=
  calc m.units < 2 ^ (53 : Nat) * 2 ^ m.exponent :=
        Nat.mul_lt_mul_of_pos_right m.mantissa_lt (Nat.two_pow_pos _)
    _ = 2 ^ (52 : Nat) * 2 ^ (m.exponent + 1) := by
        rw [← Nat.pow_add, ← Nat.pow_add]
        congr 1
        omega
    _ ≤ 2 ^ (52 : Nat) * 2 ^ e :=
        Nat.mul_le_mul_left _ (Nat.pow_le_pow_right (by decide) h)

/-- A mantissa that was carried is even if it was so before. -/
theorem mantissa_even_of_carry {n e : Nat} {hn : n ≤ 2 ^ (53 : Nat)}
    {h : e = 0 ∨ 2 ^ (52 : Nat) ≤ n} {m : Magnitude} (hm : carry n e hn h = some m)
    (heven : n % 2 = 0) : m.mantissa % 2 = 0 := by
  unfold carry at hm
  split at hm
  · split at hm
    · cases hm
      show 2 ^ (52 : Nat) % 2 = 0
      decide
    · cases hm
  · split at hm
    · cases hm
      exact heven
    · cases hm

/-- **Rounding takes the nearest magnitude**, and of two nearest ones the one with the even
mantissa. -/
theorem abs_round_sub_le {num den : Nat} (hden : 0 < den) {m : Magnitude}
    (hm : round num den = some m) (m' : Magnitude) :
    |(m.units * den : ℤ) - num| ≤ |(m'.units * den : ℤ) - num| ∧
      (m' ≠ m → |(m.units * den : ℤ) - num| = |(m'.units * den : ℤ) - num| →
        m.mantissa % 2 = 0) := by
  obtain ⟨n, hn, hnormal, hnearest, hround⟩ := exists_round_eq_carry num den
  have hunits := units_of_carry (hround.symm.trans hm)
  have heven := mantissa_even_of_carry (hround.symm.trans hm)
  have hfull := le_div_exponentOf (q := num / den)
  generalize exponentOf (num / den) = e at hnearest hunits hfull
  obtain ⟨w, hw⟩ : ∃ w, w = den * 2 ^ e := ⟨_, rfl⟩
  rw [← hw] at hnearest
  have hwhole : 0 < w := by
    rw [hw]
    exact Nat.mul_pos hden (Nat.two_pow_pos e)
  have hmul : m.units * den = n * w := by
    rw [hunits, hw, Nat.mul_assoc, Nat.mul_comm (2 ^ e)]
  have hmul' : (m.units * den : ℤ) = n * w := by exact_mod_cast hmul
  rw [hmul']
  by_cases he : e ≤ m'.exponent
  · -- the other magnitude is a multiple of the step
    obtain ⟨c, hc⟩ : ∃ c, m'.units * den = c * w := by
      refine ⟨m'.mantissa * 2 ^ (m'.exponent - e), ?_⟩
      rw [m'.units_eq_mul he, hw, Nat.mul_assoc, Nat.mul_comm (2 ^ e)]
    have hc' : (m'.units * den : ℤ) = c * w := by exact_mod_cast hc
    obtain ⟨hle, htie⟩ := abs_nearest_sub_le num hwhole c
    rw [← hnearest] at hle htie
    rw [hc']
    refine ⟨hle, fun hne heq => heven (htie ?_ heq)⟩
    intro hcn
    refine hne (units_injective (Nat.eq_of_mul_eq_mul_right hden ?_))
    rw [hc, hmul, Int.natCast_inj.1 hcn]
  · -- the other magnitude is below the least full mantissa at the exponent of the quotient
    have hlow : m'.units * den < 2 ^ (52 : Nat) * w := by
      have hunits' := units_lt_of_exponent_lt (Nat.not_le.1 he)
      rw [hw, Nat.mul_comm den, ← Nat.mul_assoc]
      exact Nat.mul_lt_mul_of_pos_right hunits' hden
    have hhigh : 2 ^ (52 : Nat) * w ≤ num := by
      rw [← Nat.le_div_iff_mul_le hwhole, hw, ← Nat.div_div_eq_div_mul]
      exact hfull (by omega)
    have hbelow : ∀ a : Nat, a ≤ num → |(a : ℤ) - num| = num - a := by
      intro a ha
      rw [abs_sub_comm, abs_of_nonneg (by omega)]
    obtain ⟨hle, -⟩ := abs_nearest_sub_le num hwhole (2 ^ (52 : Nat) : ℕ)
    have hleast := hbelow (2 ^ (52 : Nat) * w) hhigh
    have hother := hbelow (m'.units * den) (by omega)
    rw [Int.natCast_mul] at hleast hother
    rw [← hnearest, hleast] at hle
    rw [hother]
    exact ⟨by omega, fun _ heq => absurd hle (by omega)⟩

/-- What is rounded to the greater of two magnitudes is not below their middle. -/
theorem mul_add_units_le_of_round {num den : Nat} (hden : 0 < den) {m m' : Magnitude}
    (hm : round num den = some m) (h : m'.units < m.units) :
    (m.units + m'.units) * den ≤ 2 * num := by
  obtain ⟨hle, -⟩ := abs_round_sub_le hden hm m'
  have hlt := Nat.mul_lt_mul_of_pos_right h hden
  have hself := le_trans (le_abs_self _) hle
  rw [Nat.add_mul]
  zify at hlt ⊢
  rcases abs_cases ((m'.units * den : ℤ) - num) with ⟨habs, -⟩ | ⟨habs, -⟩
  · omega
  · omega

/-- What is rounded to the smaller of two magnitudes is not above their middle. -/
theorem le_mul_add_units_of_round {num den : Nat} (hden : 0 < den) {m m' : Magnitude}
    (hm : round num den = some m) (h : m.units < m'.units) :
    2 * num ≤ (m.units + m'.units) * den := by
  obtain ⟨hle, -⟩ := abs_round_sub_le hden hm m'
  have hlt := Nat.mul_lt_mul_of_pos_right h hden
  have hself := le_trans (neg_le_abs _) hle
  rw [Nat.add_mul]
  zify at hlt ⊢
  rcases abs_cases ((m'.units * den : ℤ) - num) with ⟨habs, -⟩ | ⟨habs, -⟩
  · omega
  · omega

/-- **Rounding is monotone.** -/
theorem round_mono {num den num' den' : Nat} (hden : 0 < den) (hden' : 0 < den')
    (h : num * den' ≤ num' * den) {m m' : Magnitude} (hm : round num den = some m)
    (hm' : round num' den' = some m') : m.units ≤ m'.units := by
  by_contra hlt
  rw [Nat.not_le] at hlt
  -- both quotients would be the middle of the two magnitudes, and so the same
  have habove := Nat.mul_le_mul_right den' (mul_add_units_le_of_round hden hm hlt)
  have hbelow := Nat.mul_le_mul_right den (le_mul_add_units_of_round hden' hm' hlt)
  rw [Nat.mul_assoc 2] at habove hbelow
  rw [Nat.add_comm m'.units, Nat.mul_right_comm] at hbelow
  have heq : num * den' = num' * den := by omega
  rw [round_congr hden hden' heq, hm'] at hm
  rw [Option.some.inj hm] at hlt
  exact lt_irrefl _ hlt

/-- Between two magnitudes with even mantissas there is another one. -/
theorem exists_between {m m' : Magnitude} (hm : m.mantissa % 2 = 0) (hm' : m'.mantissa % 2 = 0)
    (h : m.units < m'.units) :
    ∃ n : Magnitude, m.units < n.units ∧ n.units < m'.units := by
  have hlt := m.mantissa_lt
  have hpos := Nat.two_pow_pos m.exponent
  refine ⟨⟨m.mantissa + 1, m.exponent, by omega, m.exponent_le, m.normal.imp_right (by omega)⟩,
    Nat.mul_lt_mul_of_pos_right (Nat.lt_succ_self _) hpos, ?_⟩
  show (m.mantissa + 1) * 2 ^ m.exponent < m'.units
  by_cases he : m.exponent ≤ m'.exponent
  · -- counted in steps of the lower exponent, the greater magnitude is even, too
    have heven : m'.mantissa * 2 ^ (m'.exponent - m.exponent) % 2 = 0 := by
      rw [Nat.mul_mod, hm', Nat.zero_mul, Nat.zero_mod]
    rw [m'.units_eq_mul he] at h ⊢
    have hsteps := Nat.lt_of_mul_lt_mul_right h
    exact Nat.mul_lt_mul_of_pos_right (by omega) hpos
  · have hlow := units_lt_of_exponent_lt (Nat.not_le.1 he)
    have hfull : 2 ^ (52 : Nat) * 2 ^ m.exponent ≤ m.units :=
      Nat.mul_le_mul_right _ (m.normal.resolve_left (by omega))
    omega

/-- Rounding keeps the zeros that a number of units ends with. -/
theorem two_pow_dvd_units_of_round {num k : Nat} (h : 2 ^ k ∣ num) {m : Magnitude}
    (hm : round num 1 = some m) : 2 ^ k ∣ m.units := by
  obtain ⟨n, hn, hnormal, hnearest, hround⟩ := exists_round_eq_carry num 1
  rw [units_of_carry (hround.symm.trans hm), hnearest, Nat.div_one, Nat.one_mul]
  generalize exponentOf num = e
  by_cases he : e ≤ k
  · -- the quotient by the step has no remainder
    have hexact : num / 2 ^ e * 2 ^ e = num :=
      Nat.div_mul_cancel (Nat.dvd_trans (Nat.pow_dvd_pow 2 he) h)
    rcases nearest_cases num (Nat.two_pow_pos e) with heq | ⟨-, hlt⟩
    · rwa [heq, hexact]
    · omega
  · exact Nat.dvd_mul_left_of_dvd (Nat.pow_dvd_pow 2 (Nat.le_of_not_le he)) _

end Magnitude

/-! ## Nearest doubles -/

namespace Double

/-- The number `q` is rounded to `r`: it is a double, and none is nearer; if another one is as near,
the mantissa is even. -/
def RoundsTo (q r : ℚ) : Prop :=
  ∃ s m, rational s m = r ∧ ∀ t n, |r - q| ≤ |rational t n - q| ∧
    (rational t n ≠ r → |r - q| = |rational t n - q| → m.mantissa % 2 = 0)

/-- How far a double is from a quotient, counted in parts of units. -/
theorem abs_rational_sub (num : Nat) {den : Nat} (hden : 0 < den) (s t : Bool) (n : Magnitude) :
    |rational t n - (signed s num : ℚ) / (den * unitsPerOne)| =
      ((|signed (s != t) n.units * den - num| : ℤ) : ℚ) / (den * unitsPerOne) := by
  have hdenpos : (0 : ℚ) < den := Nat.cast_pos.2 hden
  have hunits := unitsPerOne_pos_rat
  rw [rational]
  generalize (unitsPerOne : ℚ) = u at hunits
  have hsub : (signed t n.units : ℚ) / u - (signed s num : ℚ) / (den * u) =
      (if s then -1 else 1) * ((signed (s != t) n.units * den - num : ℤ) : ℚ) / (den * u) := by
    push_cast
    simp only [cast_signed]
    field_simp
    cases s <;> cases t <;> simp <;> ring
  have hsign : |(if s then -1 else 1 : ℚ)| = 1 := by
    cases s <;> simp
  rw [hsub, abs_div, abs_mul, hsign, one_mul, abs_of_pos (mul_pos hdenpos hunits), Int.cast_abs]

/-- **Rounding follows the rule.** -/
theorem roundsTo_round {num den : Nat} (hden : 0 < den) {s : Bool} {m : Magnitude}
    (hm : Magnitude.round num den = some m) :
    RoundsTo ((signed s num : ℚ) / (den * unitsPerOne)) (rational s m) := by
  have hpos : (0 : ℚ) < den * unitsPerOne := mul_pos (Nat.cast_pos.2 hden) unitsPerOne_pos_rat
  refine ⟨s, m, rfl, fun t n => ?_⟩
  have hself : (s != s) = false := by simp
  rw [abs_rational_sub num hden, abs_rational_sub num hden, div_le_div_iff_of_pos_right hpos,
    div_left_inj' hpos.ne', hself, signed_false, Int.cast_le, Int.cast_inj]
  by_cases hst : t = s
  · rw [hst, hself, signed_false]
    obtain ⟨hle, htie⟩ := Magnitude.abs_round_sub_le hden hm n
    exact ⟨hle, fun hne => htie fun hnm => hne (by rw [hnm])⟩
  · -- a double of the other sign is no nearer than zero
    obtain ⟨hle, htie⟩ := Magnitude.abs_round_sub_le hden hm .zero
    have hzero : Magnitude.zero.units = 0 := Magnitude.units_eq_zero_iff.2 rfl
    have hother : (s != t) = true := by
      rw [bne_iff_ne]
      exact Ne.symm hst
    have hminus : |(signed true n.units * den : ℤ) - num| = (n.units * den : ℕ) + num := by
      have hsum : (signed true n.units * den : ℤ) - num = -((n.units * den : ℕ) + num) := by
        rw [signed_true]
        push_cast
        ring
      rw [hsum, abs_neg, abs_of_nonneg (by omega)]
    rw [hzero, Nat.cast_zero, zero_mul, zero_sub, abs_neg, Nat.abs_cast] at hle htie
    rw [hother, hminus]
    refine ⟨by omega, fun hne heq => htie ?_ (by omega)⟩
    rintro rfl
    have hnone : n.units = 0 := by
      have hprod : n.units * den = 0 := by
        rw [hzero, Nat.cast_zero, zero_mul, zero_sub, abs_neg, Nat.abs_cast] at heq
        omega
      exact (Nat.mul_eq_zero.1 hprod).resolve_right hden.ne'
    apply hne
    rw [rational, rational, hnone, hzero, signed_zero, signed_zero]

/-- What lies between two numbers is nearer to their middle than they are. -/
theorem abs_sub_lt_of_between {a b c q : ℚ} (hac : a < c) (hcb : c < b)
    (hmiddle : |a - q| = |b - q|) : |c - q| < |a - q| := by
  have hq : q = (a + b) / 2 := by
    rcases abs_eq_abs.1 hmiddle with h | h
    · linarith
    · linarith
  have hhalf : |a - q| = (b - a) / 2 := by
    rw [hq, abs_of_nonpos (by linarith)]
    ring
  rw [hhalf, hq, abs_lt]
  constructor
  · linarith
  · linarith

/-- Between two doubles with even mantissas there is another one. -/
theorem exists_rational_between {s t : Bool} {m n : Magnitude} (hm : m.mantissa % 2 = 0)
    (hn : n.mantissa % 2 = 0) (h : rational s m < rational t n) :
    ∃ b k, rational s m < rational b k ∧ rational b k < rational t n := by
  have hunits := unitsPerOne_pos_rat
  have hlt : ∀ {b c : Bool} {j k : Magnitude},
      rational b j < rational c k ↔ signed b j.units < signed c k.units := by
    intro b c j k
    rw [rational, rational, div_lt_div_iff_of_pos_right hunits, Int.cast_lt]
  simp only [hlt] at h ⊢
  have hzero : Magnitude.zero.units = 0 := Magnitude.units_eq_zero_iff.2 rfl
  have hzeroeven : Magnitude.zero.mantissa % 2 = 0 := rfl
  cases s with
  | false =>
      cases t with
      | false =>
          simp only [signed_false, Int.ofNat_lt] at h
          obtain ⟨k, hmk, hkn⟩ := Magnitude.exists_between hm hn h
          exact ⟨false, k, by simpa using hmk, by simpa using hkn⟩
      | true =>
          simp only [signed_false, signed_true] at h
          omega
  | true =>
      cases t with
      | false =>
          -- zero is between, unless it is one of the two
          simp only [signed_false, signed_true] at h
          by_cases hm0 : m.units = 0
          · obtain ⟨k, hk, hkn⟩ := Magnitude.exists_between hzeroeven hn (by omega)
            exact ⟨false, k, by simp only [signed_false, signed_true]; omega,
              by simpa using hkn⟩
          · by_cases hn0 : n.units = 0
            · obtain ⟨k, hk, hkm⟩ := Magnitude.exists_between hzeroeven hm (by omega)
              exact ⟨true, k, by simpa using hkm, by simp only [signed_false, signed_true]; omega⟩
            · refine ⟨false, .zero, ?_, ?_⟩
              · simp only [signed_false, signed_true]
                omega
              · simp only [signed_false]
                omega
      | true =>
          simp only [signed_true, neg_lt_neg_iff, Int.ofNat_lt] at h
          obtain ⟨k, hnk, hkm⟩ := Magnitude.exists_between hn hm h
          exact ⟨true, k, by simpa using hkm, by simpa using hnk⟩

/-- **At most one number follows the rule.** -/
theorem RoundsTo.unique {q r r' : ℚ} (h : RoundsTo q r) (h' : RoundsTo q r') : r = r' := by
  obtain ⟨s, m, hm, hnearest⟩ := h
  obtain ⟨t, n, hn, hnearest'⟩ := h'
  by_contra hne
  have hmiddle : |r - q| = |r' - q| := by
    apply le_antisymm
    · rw [← hn]
      exact (hnearest t n).1
    · rw [← hm]
      exact (hnearest' s m).1
  -- each is as near as the other one, so both have even mantissas
  have hmeven : m.mantissa % 2 = 0 :=
    (hnearest t n).2 (by rw [hn]; exact Ne.symm hne) (by rw [hn, hmiddle])
  have hneven : n.mantissa % 2 = 0 :=
    (hnearest' s m).2 (by rw [hm]; exact hne) (by rw [hm, hmiddle])
  rcases lt_or_gt_of_ne hne with hlt | hlt
  · rw [← hm, ← hn] at hlt
    obtain ⟨b, k, hlow, hhigh⟩ := exists_rational_between hmeven hneven hlt
    rw [hm] at hlow
    rw [hn] at hhigh
    have hnear := abs_sub_lt_of_between hlow hhigh hmiddle
    exact absurd (hnearest b k).1 (not_le.2 hnear)
  · rw [← hm, ← hn] at hlt
    obtain ⟨b, k, hlow, hhigh⟩ := exists_rational_between hneven hmeven hlt
    rw [hn] at hlow
    rw [hm] at hhigh
    have hnear := abs_sub_lt_of_between hlow hhigh hmiddle.symm
    exact absurd (hnearest' b k).1 (not_le.2 hnear)

/-! ## Integers -/

/-- **An integer is rounded to an integer**, which is no larger than the bounds of 64 bits. -/
theorem exists_ofInt_eq (i : Int64) : ∃ (s : Bool) (m : Magnitude) (k : Nat),
    ofInt i.toInt = finite s m ∧ m.units = k * unitsPerOne ∧ k ≤ 2 ^ (63 : Nat) ∧
      rational s m = (signed s k : ℤ) ∧ RoundsTo i.toInt (signed s k : ℤ) := by
  have hunits := unitsPerOne_pos_rat
  obtain ⟨s, m, hm, hle⟩ := atMost_ofInt i
  have hround := eq_some_of_round_eq_finite hm
  obtain rfl : decide (i.toInt < 0) = s := by
    rw [ofInt, round, hround] at hm
    exact (finite.inj hm).1
  obtain ⟨k, hk⟩ : unitsPerOne ∣ m.units := by
    obtain ⟨j, hj⟩ := exists_unitsPerOne_eq
    rw [hj] at hround ⊢
    exact Magnitude.two_pow_dvd_units_of_round (Nat.dvd_mul_left _ _) hround
  rw [Nat.mul_comm] at hk
  have hvalue : rational (i.toInt < 0) m = (signed (i.toInt < 0) k : ℤ) := by
    rw [rational, hk, signed_mul, Int.cast_mul, Int.cast_natCast,
      mul_div_cancel_right₀ _ hunits.ne']
  refine ⟨_, m, k, hm, hk, ?_, hvalue, ?_⟩
  · rw [hk] at hle
    exact Nat.le_of_mul_le_mul_right hle unitsPerOne_pos
  · have hrounds := roundsTo_round (s := decide (i.toInt < 0)) Nat.one_pos hround
    have hexact : (signed (i.toInt < 0) (i.toInt.natAbs * unitsPerOne) : ℚ) /
        ((1 : ℕ) * unitsPerOne) = i.toInt := by
      rw [signed_mul, signed_natAbs, Int.cast_mul, Int.cast_natCast, Nat.cast_one, one_mul,
        mul_div_cancel_right₀ _ hunits.ne']
    rwa [hexact, hvalue] at hrounds

/-- The numbers that doubles stand for are rounded to themselves. -/
theorem RoundsTo.eq_of_value? {q r : ℚ} (h : RoundsTo q r) {d : Double} (hd : d.value? = some q) :
    r = q := by
  obtain ⟨s, m, rfl, hnearest⟩ := h
  cases d with
  | nan => cases hd
  | infinity s => cases hd
  | finite t n =>
      obtain rfl : rational t n = q := Option.some.inj hd
      have hle := (hnearest t n).1
      rw [sub_self, abs_zero] at hle
      exact sub_eq_zero.1 (abs_nonpos_iff.1 hle)

end Double

end LineCalc
