import LineCalc.Double.Arithmetic
import LineCalc.Proofs.Double.Round
/-!
# Finite results

When the result of an operation is finite: a sum, a difference or a product has finite operands
then, a quotient has a finite dividend and a divisor that is not zero, and within the range of
doubles every operation but a division by zero stays finite.

* `Double.isFinite_of_add`, `Double.isFinite_of_mul`, `Double.isFinite_of_div` : the operands of
  a finite result;
* `Double.isFinite_div_of_isZero` : nothing can be divided by zero;
* `Double.AtMost` : a bound on the size of a double, with what every operation makes of it;
* `Double.intSized_ofInt` : the size of an integer.
-/
namespace LineCalc.Double

/-! ## Signs -/

/-- Without a minus a number is itself. -/
@[simp] theorem signed_false (n : Nat) : signed false n = n := rfl

/-- With a minus it is its opposite. -/
@[simp] theorem signed_true (n : Nat) : signed true n = -n := rfl

/-- Zero has no sign. -/
@[simp] theorem signed_zero (s : Bool) : signed s 0 = 0 := by
  cases s <;> rfl

/-- A factor does not change the sign. -/
theorem signed_mul (s : Bool) (n k : Nat) : signed s (n * k) = signed s n * k := by
  cases s with
  | false => exact Int.natCast_mul n k
  | true => rw [signed_true, signed_true, Int.natCast_mul, Int.neg_mul]

/-- The sign and the absolute value make the integer. -/
theorem signed_natAbs (i : Int) : signed (i < 0) i.natAbs = i := by
  unfold signed
  split
  · next h => simp only [decide_eq_true_eq] at h; omega
  · next h => simp only [decide_eq_true_eq] at h; omega

/-! ## Finite operands -/

/-- The sum of finite terms. -/
theorem finite_add_finite (s t : Bool) (a b : Magnitude) : finite s a + finite t b =
    if signed s a.units + signed t b.units = 0 then finite (s && t) .zero
    else round (signed s a.units + signed t b.units < 0)
      (signed s a.units + signed t b.units).natAbs 1 := rfl

/-- The quotient of finite terms. -/
theorem finite_div_finite (s t : Bool) (a b : Magnitude) : finite s a / finite t b =
    if b.units = 0 then if a.units = 0 then nan else infinity (s != t)
    else round (s != t) (a.units * unitsPerOne) b.units := rfl

/-- A finite double has a magnitude. -/
theorem isFinite_iff {x : Double} : x.isFinite ↔ ∃ s m, x = finite s m := by
  cases x with
  | nan => simp [isFinite]
  | infinity s => simp [isFinite]
  | finite s m => simp [isFinite]

/-- A sign keeps a double finite, or not finite. -/
@[simp] theorem isFinite_neg (x : Double) : (-x).isFinite = x.isFinite := by
  cases x with
  | nan => rfl
  | infinity s => rfl
  | finite s m => rfl

/-- The terms of a finite sum are finite. -/
theorem isFinite_of_add {x y : Double} (h : (x + y).isFinite) : x.isFinite ∧ y.isFinite := by
  change (add x y).isFinite at h
  unfold add at h
  split at h
  · cases h
  · cases h
  · split at h
    · cases h
    · cases h
  · cases h
  · cases h
  · exact ⟨rfl, rfl⟩

/-- The terms of a finite difference are finite. -/
theorem isFinite_of_sub {x y : Double} (h : (x - y).isFinite) : x.isFinite ∧ y.isFinite := by
  obtain ⟨hx, hy⟩ := isFinite_of_add (y := -y) h
  exact ⟨hx, by rwa [isFinite_neg] at hy⟩

/-- The factors of a finite product are finite. -/
theorem isFinite_of_mul {x y : Double} (h : (x * y).isFinite) : x.isFinite ∧ y.isFinite := by
  change (mul x y).isFinite at h
  unfold mul at h
  split at h
  · cases h
  · cases h
  · cases h
  · split at h
    · cases h
    · cases h
  · split at h
    · cases h
    · cases h
  · exact ⟨rfl, rfl⟩

/-- The dividend of a finite quotient is finite. -/
theorem isFinite_of_div {x y : Double} (h : (x / y).isFinite) : x.isFinite := by
  change (div x y).isFinite at h
  unfold div at h
  split at h
  · cases h
  · cases h
  · cases h
  · cases h
  · rfl
  · rfl

/-- Zero, of either sign. -/
def IsZero (x : Double) : Prop := ∃ s, x = finite s .zero

/-- Whether a double is zero can be computed. -/
instance (x : Double) : Decidable x.IsZero :=
  decidable_of_iff (∃ s, x = finite s .zero) Iff.rfl

/-- **Nothing divided by zero is finite.** -/
theorem isFinite_div_of_isZero (x : Double) {y : Double} (hy : y.IsZero) :
    (x / y).isFinite = false := by
  obtain ⟨t, rfl⟩ := hy
  cases x with
  | nan => rfl
  | infinity s => rfl
  | finite s m =>
      rw [finite_div_finite, if_pos (Magnitude.units_eq_zero_iff.2 rfl)]
      split
      · rfl
      · rfl

/-! ## Sizes -/

/-- At least one, or at most minus one, and finite. -/
def AtLeastOne (x : Double) : Prop := ∃ s m, x = finite s m ∧ unitsPerOne ≤ m.units

/-- Between `-2 ^ k` and `2 ^ k`. -/
def AtMost (k : Nat) (x : Double) : Prop := ∃ s m, x = finite s m ∧ m.units ≤ 2 ^ k * unitsPerOne

variable {j k : Nat} {x y : Double}

/-- What has a bound is finite. -/
theorem AtMost.isFinite (h : AtMost k x) : x.isFinite := by
  obtain ⟨s, m, rfl, -⟩ := h
  rfl

/-- A bound may be raised. -/
theorem AtMost.mono (h : AtMost j x) (hjk : j ≤ k) : AtMost k x := by
  obtain ⟨s, m, rfl, hm⟩ := h
  refine ⟨s, m, rfl, le_trans hm ?_⟩
  apply Nat.mul_le_mul_right
  exact Nat.pow_le_pow_right (by decide) hjk

/-- A power of two, in units. -/
theorem two_pow_mul_unitsPerOne (k : Nat) : 2 ^ k * unitsPerOne = 2 ^ (k + 1074) := by
  rw [unitsPerOne, Nat.pow_add]

/-- One is a power of two, in units. -/
theorem exists_unitsPerOne_eq : ∃ k : Nat, unitsPerOne = 2 ^ k := ⟨_, unitsPerOne.eq_1⟩

/-- There is a one. -/
theorem unitsPerOne_pos : 0 < unitsPerOne := by
  obtain ⟨k, hk⟩ := exists_unitsPerOne_eq
  rw [hk]
  exact Nat.two_pow_pos k

/-- What is rounded to a finite double has that magnitude. -/
theorem eq_some_of_round_eq_finite {s t : Bool} {num den : Nat} {m : Magnitude}
    (h : round s num den = finite t m) : Magnitude.round num den = some m := by
  unfold round at h
  split at h
  · next r hr =>
      cases h
      exact hr
  · cases h

/-- What is rounded keeps its bound. -/
theorem atMost_round {s : Bool} {num den : Nat} (hden : 0 < den) (hk : k ≤ 1023)
    (h : num ≤ 2 ^ k * unitsPerOne * den) : AtMost k (round s num den) := by
  -- the bound is a magnitude itself, and rounding never passes one
  obtain ⟨b, hb⟩ := Magnitude.exists_units_eq_two_pow (k := k + 1074) (by omega)
  rw [two_pow_mul_unitsPerOne, ← hb] at h
  obtain ⟨m, hm, hle⟩ := Magnitude.round_le hden h
  refine ⟨s, m, ?_, ?_⟩
  · rw [round, hm]
  · rw [two_pow_mul_unitsPerOne, ← hb]
    exact hle

/-- A sign keeps the size. -/
theorem AtMost.neg (h : AtMost k x) : AtMost k (-x) := by
  obtain ⟨s, m, rfl, hm⟩ := h
  exact ⟨!s, m, rfl, hm⟩

/-- A sum is at most twice as large as its terms. -/
theorem AtMost.add (hx : AtMost k x) (hy : AtMost k y) (hk : k + 1 ≤ 1023) :
    AtMost (k + 1) (x + y) := by
  obtain ⟨s, a, rfl, ha⟩ := hx
  obtain ⟨t, b, rfl, hb⟩ := hy
  have hsum : (signed s a.units + signed t b.units).natAbs ≤ a.units + b.units := by
    unfold signed
    split <;> split <;> omega
  rw [finite_add_finite]
  split
  · exact ⟨s && t, .zero, rfl, Nat.zero_le _⟩
  · apply atMost_round Nat.one_pos hk
    rw [Nat.mul_one, Nat.pow_succ, Nat.mul_right_comm, Nat.mul_two]
    omega

/-- A difference is at most twice as large as its terms. -/
theorem AtMost.sub (hx : AtMost k x) (hy : AtMost k y) (hk : k + 1 ≤ 1023) :
    AtMost (k + 1) (x - y) := hx.add hy.neg hk

/-- The exponents of the bounds of two factors add up. -/
theorem AtMost.mul (hx : AtMost j x) (hy : AtMost k y) (hjk : j + k ≤ 1023) :
    AtMost (j + k) (x * y) := by
  obtain ⟨s, a, rfl, ha⟩ := hx
  obtain ⟨t, b, rfl, hb⟩ := hy
  apply atMost_round (s := s != t) unitsPerOne_pos hjk
  calc a.units * b.units
      ≤ 2 ^ j * unitsPerOne * (2 ^ k * unitsPerOne) := Nat.mul_le_mul ha hb
    _ = 2 ^ (j + k) * unitsPerOne * unitsPerOne := by
        rw [Nat.mul_mul_mul_comm, ← Nat.pow_add, Nat.mul_assoc]

/-- What is divided by one or more gets no larger. -/
theorem exists_div_of_atLeastOne (s : Bool) (m : Magnitude) (hy : y.AtLeastOne) :
    ∃ t m', finite s m / y = finite t m' ∧ m'.units ≤ m.units := by
  obtain ⟨t, b, rfl, hb⟩ := hy
  have hpos : 0 < b.units := Nat.lt_of_lt_of_le unitsPerOne_pos hb
  obtain ⟨m', hm', hle⟩ := Magnitude.round_le hpos (Nat.mul_le_mul_left m.units hb)
  refine ⟨s != t, m', ?_, hle⟩
  rw [finite_div_finite, if_neg (Nat.ne_of_gt hpos), round, hm']

/-- Dividing by one or more keeps the bound. -/
theorem AtMost.div (hx : AtMost k x) (hy : y.AtLeastOne) : AtMost k (x / y) := by
  obtain ⟨s, m, rfl, hm⟩ := hx
  obtain ⟨t, m', heq, hle⟩ := exists_div_of_atLeastOne s m hy
  exact ⟨t, m', heq, le_trans hle hm⟩

/-- Dividing by one or more stays finite. -/
theorem isFinite_div (hx : x.isFinite) (hy : y.AtLeastOne) : (x / y).isFinite := by
  obtain ⟨s, m, rfl⟩ := isFinite_iff.1 hx
  obtain ⟨t, m', heq, -⟩ := exists_div_of_atLeastOne s m hy
  rw [heq]
  rfl

/-! ## Integers -/

/-- As large as an integer of 64 bits can be: within their range, and not between zero and one. -/
structure IntSized (x : Double) : Prop where
  atMost : AtMost 63 x
  isZero_or_atLeastOne : x.IsZero ∨ x.AtLeastOne

/-- A sign keeps the size of an integer. -/
theorem IntSized.neg (h : IntSized x) : IntSized (-x) := by
  refine ⟨h.atMost.neg, ?_⟩
  rcases h.isZero_or_atLeastOne with ⟨s, rfl⟩ | ⟨s, m, rfl, hm⟩
  · exact .inl ⟨!s, rfl⟩
  · exact .inr ⟨!s, m, rfl, hm⟩

/-- The integer zero is zero. -/
theorem ofInt_zero : ofInt 0 = zero := by
  have hround : Magnitude.round 0 1 = some .zero := Magnitude.round_units .zero
  rw [ofInt, Int.natAbs_zero, Nat.zero_mul, round, hround]
  rfl

/-- An integer of 64 bits is within their range. -/
theorem atMost_ofInt (i : Int64) : AtMost 63 (ofInt i.toInt) := by
  have hlo := i.le_toInt
  have hhi := i.toInt_lt
  apply atMost_round Nat.one_pos (by decide)
  rw [Nat.mul_one]
  apply Nat.mul_le_mul_right
  omega

/-- An integer has the size of one. -/
theorem intSized_ofInt (i : Int64) : IntSized (ofInt i.toInt) := by
  refine ⟨atMost_ofInt i, ?_⟩
  by_cases hi : i.toInt = 0
  · left
    exact ⟨false, by rw [hi, ofInt_zero, zero]⟩
  · right
    obtain ⟨s, m, hm, -⟩ := atMost_ofInt i
    refine ⟨s, m, hm, ?_⟩
    rw [ofInt] at hm
    have hround := eq_some_of_round_eq_finite hm
    -- one is a power of two, and those are not passed downwards either
    obtain ⟨k, hk⟩ := exists_unitsPerOne_eq
    rw [hk] at hround ⊢
    apply Magnitude.le_round Nat.one_pos _ hround
    rw [Nat.mul_one]
    apply Nat.le_mul_of_pos_left
    omega

end LineCalc.Double
