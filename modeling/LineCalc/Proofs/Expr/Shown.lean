import LineCalc.Expr.Eval
import LineCalc.Proofs.Double.Saturate
import LineCalc.Proofs.Double.Value
import Mathlib.Tactic.NormNum
/-!
# How integer results are shown

An integer result is shown as the whole part of its value, drawn to the bounds of 64 bits, whatever
the value is; only what is no finite number cannot be shown.

* `Result.toText?_finite`, `Result.toText?_eq_none_iff` : the two cases, told by the double;
* `Value.exists_toText?` : the value of a variable can always be shown;
* `Result.toText?_ofBits` : the text, told by the value that the bits stand for.
-/
namespace LineCalc

namespace Result

/-- A finite integer result is shown as its whole part, drawn to the bounds. -/
theorem toText?_finite (s : Bool) (m : Magnitude) : toText? ⟨.finite s m, true⟩ =
    some (Bytes.ofInt (max (-2 ^ (63 : Nat))
      (min (Double.signed s (m.units / unitsPerOne)) (2 ^ (63 : Nat) - 1)))) := by
  obtain ⟨i, hi, hvalue⟩ := Double.saturate?_finite s m
  rw [← hvalue, toText?, if_pos rfl, hi]
  rfl

/-- An integer result cannot be shown just if it is not finite. -/
theorem toText?_eq_none_iff {x : Double} : toText? ⟨x, true⟩ = none ↔ x.isFinite = false := by
  rw [toText?, if_pos rfl, Option.map_eq_none_iff, Double.saturate?_eq_none_iff]

/-- An integer result is shown as the whole part of its value, drawn to the bounds. -/
theorem toText?_eq_map_value? (x : Double) : toText? ⟨x, true⟩ = x.value?.map fun q =>
    Bytes.ofInt (max (-2 ^ (63 : Nat)) (min (Double.towardZero q) (2 ^ (63 : Nat) - 1))) := by
  cases x with
  | nan => exact toText?_eq_none_iff.2 rfl
  | infinity s => exact toText?_eq_none_iff.2 rfl
  | finite s m => rw [toText?_finite, Double.value?, Option.map_some, Double.towardZero_rational]

/-- **Integer results are cut off and drawn to the bounds exactly.**  Whatever 64 bits a result has,
it is shown as the value of these bits, rounded toward zero and kept within 64 bits.

* It cannot be shown just if the bits are those of an infinity or of no number.
* What is less than one, and zero of either sign, is shown as `0`. -/
theorem toText?_ofBits (bits : UInt64) :
    (toText? ⟨.ofBits bits, true⟩ = (Double.valueOfBits? bits).map fun q =>
      Bytes.ofInt (max (-2 ^ (63 : Nat)) (min (Double.towardZero q) (2 ^ (63 : Nat) - 1)))) ∧
    (toText? ⟨.ofBits bits, true⟩ = none ↔
      Double.ofBits bits = .nan ∨ ∃ s, Double.ofBits bits = .infinity s) ∧
    ∀ q ∈ Double.valueOfBits? bits, |q| < 1 → toText? ⟨.ofBits bits, true⟩ = some (utf8 "0") := by
  have hshown := toText?_eq_map_value? (.ofBits bits)
  rw [Double.value?_ofBits] at hshown
  refine ⟨hshown, ?_, ?_⟩
  · rw [toText?_eq_none_iff]
    cases Double.ofBits bits with
    | nan => simp [Double.isFinite]
    | infinity s => simp [Double.isFinite]
    | finite s m => simp [Double.isFinite]
  · intro q hq hless
    have hzero : Bytes.ofInt (max (-2 ^ (63 : Nat)) (min 0 (2 ^ (63 : Nat) - 1))) = utf8 "0" := by
      decide +kernel
    rw [hshown, hq, Option.map_some, Double.towardZero_eq_zero hless, hzero]

/-- Minus one half is shown as `0`. -/
theorem toText?_minus_half :
    Double.valueOfBits? 0xbfe0000000000000 = some (-1 / 2) ∧ |(-1 / 2 : ℚ)| < 1 ∧
      toText? ⟨.ofBits 0xbfe0000000000000, true⟩ = some (utf8 "0") := by
  have hvalue : Double.valueOfBits? 0xbfe0000000000000 = some (-1 / 2) := by
    have hbits : UInt64.toNat 0xbfe0000000000000 = 0xbfe0000000000000 := rfl
    norm_num [Double.valueOfBits?, hbits]
  have hless : |(-1 / 2 : ℚ)| < 1 := by
    norm_num [abs_lt]
  exact ⟨hvalue, hless, (toText?_ofBits 0xbfe0000000000000).2.2 _ hvalue hless⟩

end Result

/-! ## The values of variables -/

/-- The result of an expression that is a variable with the value. -/
def Value.toResult (v : Value) : Result := ⟨v.toDouble, v.kind == .int⟩

/-- A variable with a value has its result. -/
theorem Expr.eval_ident_of_find? {t : Table} {name : Token} {v : Value}
    (h : t.find? name.lexeme = some v) : (ident name).eval t = .ok v.toResult := by
  simp only [eval, evalName, h]
  rfl

/-- The value of a variable can always be shown. -/
theorem Value.exists_toText? (v : Value) : ∃ text, v.toResult.toText? = some text := by
  cases v with
  | int i =>
      obtain ⟨s, m, hm, -⟩ := Double.atMost_ofInt i
      have hresult : (int i).toResult = ⟨.finite s m, true⟩ := by
        rw [← hm]
        rfl
      rw [hresult]
      exact ⟨_, Result.toText?_finite s m⟩
  | double d => exact ⟨d.toText, rfl⟩

end LineCalc
