import LineCalc.Double.Basic
/-!
# Rounding

Every operation on doubles is its exact result, a quotient of two natural numbers of units,
rounded to the nearest double; of two nearest ones the even mantissa is taken.  A result too
large for any magnitude is infinite.
-/
namespace LineCalc

namespace Magnitude

/-- The exponent that leaves at most 53 bits of `q`. -/
def exponentOf (q : Nat) : Nat := q.log2 - 52

/-- At its exponent a number fits 53 bits. -/
theorem div_exponentOf_lt (q : Nat) : q / 2 ^ exponentOf q < 2 ^ (53 : Nat) := by
  rw [Nat.div_lt_iff_lt_mul (Nat.two_pow_pos _), ← Nat.pow_add]
  exact Nat.lt_of_lt_of_le Nat.lt_log2_self
    (Nat.pow_le_pow_right (by decide) (by simp only [exponentOf]; omega))

/-- At its exponent, unless that is the least one, a number fills 53 bits. -/
theorem le_div_exponentOf {q : Nat} (h : exponentOf q ≠ 0) :
    2 ^ (52 : Nat) ≤ q / 2 ^ exponentOf q := by
  have hq : q ≠ 0 := by
    rintro rfl
    exact h (by decide)
  rw [Nat.le_div_iff_mul_le (Nat.two_pow_pos _), ← Nat.pow_add,
    show 52 + exponentOf q = q.log2 by simp only [exponentOf] at h ⊢; omega]
  exact Nat.log2_self_le hq

/-- Whether `num / den` is nearer to its ceiling than to its floor; a tie goes to the even one. -/
def roundsUp (num den : Nat) : Bool :=
  den < 2 * (num % den) || (2 * (num % den) == den && num / den % 2 == 1)

/-- `m · 2 ^ e` units, where `m` may have been rounded up to the next power of two; `none` if it
is too large. -/
def carry (m e : Nat) (hm : m ≤ 2 ^ (53 : Nat)) (hn : e = 0 ∨ 2 ^ (52 : Nat) ≤ m) :
    Option Magnitude :=
  if h : m = 2 ^ (53 : Nat) then
    if he : e + 1 ≤ 2045 then
      some ⟨2 ^ (52 : Nat), e + 1, by decide, he, .inr (Nat.le_refl _)⟩
    else none
  else
    if he : e ≤ 2045 then some ⟨m, e, by omega, he, hn⟩ else none

/-- The magnitude nearest to `num / den` units, or `none` if that is too large. -/
def round (num den : Nat) : Option Magnitude :=
  let e := exponentOf (num / den)
  let whole := den * 2 ^ e
  have hlt : num / whole < 2 ^ (53 : Nat) := by
    show num / (den * 2 ^ e) < 2 ^ (53 : Nat)
    rw [← Nat.div_div_eq_div_mul]
    exact div_exponentOf_lt _
  have hle : e = 0 ∨ 2 ^ (52 : Nat) ≤ num / whole := by
    by_cases he : e = 0
    · exact .inl he
    · right
      show 2 ^ (52 : Nat) ≤ num / (den * 2 ^ e)
      rw [← Nat.div_div_eq_div_mul]
      exact le_div_exponentOf he
  if roundsUp num whole then
    carry (num / whole + 1) e (by omega) (by omega)
  else
    carry (num / whole) e (by omega) hle

end Magnitude

/-- The double nearest to `num / den` units, with the given sign. -/
def Double.round (negative : Bool) (num den : Nat) : Double :=
  match Magnitude.round num den with
  | some m => .finite negative m
  | none => .infinity negative

end LineCalc
