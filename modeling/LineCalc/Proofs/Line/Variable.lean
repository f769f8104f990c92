import LineCalc.Proofs.Double.Nearest
import LineCalc.Proofs.Line.Print
import LineCalc.Proofs.Text.Digits
/-!
# Printing an integer variable

A variable of kind int is computed with as a double, so a print of it shows the integer nearest to
its value that is a double.  That is its own text only if its value is a double, or the greatest
integer of 64 bits, which is rounded up and then drawn back to the bound.

* `Value.toText?_toResult_int` : the text of a rounded integer;
* `Double.RoundsTo.clamp_eq_iff` : when it is the text of the integer itself.
-/
namespace LineCalc

/-! ## Rounding and drawing to the bounds -/

/-- An integer of 64 bits is shown as what it is rounded to, drawn to the bounds. -/
theorem Value.toText?_toResult_int {i : Int64} {r : Int} (h : Double.RoundsTo i.toInt r) :
    (int i).toResult.toText? =
      some (Bytes.ofInt (max (-2 ^ (63 : Nat)) (min r (2 ^ (63 : Nat) - 1)))) := by
  obtain ⟨s, m, k, hofInt, hunits, -, -, hrounds⟩ := Double.exists_ofInt_eq i
  have hr : r = Double.signed s k := Int.cast_inj.1 (h.unique hrounds)
  have hresult : (int i).toResult = ⟨.finite s m, true⟩ := by
    rw [← hofInt]
    rfl
  rw [hresult, Result.toText?_finite, hunits, Nat.mul_div_cancel _ Double.unitsPerOne_pos, hr]

/-- What an integer is rounded to, told by its double. -/
theorem Double.roundsTo_of_ofInt {i : Int64} {s : Bool} {m : Magnitude} {k : Nat}
    (h : ofInt i.toInt = finite s m) (hk : m.units = k * unitsPerOne) :
    RoundsTo i.toInt (signed s k : ℤ) := by
  obtain ⟨t, n, j, hofInt, hunits, -, -, hrounds⟩ := exists_ofInt_eq i
  obtain ⟨rfl, rfl⟩ := finite.inj (h.symm.trans hofInt)
  obtain rfl : k = j := Nat.eq_of_mul_eq_mul_right unitsPerOne_pos (hk.symm.trans hunits)
  exact hrounds

/-- The greatest integer of 64 bits is rounded up. -/
theorem Double.RoundsTo.eq_of_maxValue {r : Int} (h : RoundsTo Int64.maxValue.toInt r) :
    r = 2 ^ (63 : Nat) := by
  obtain ⟨m, hunits, hmax, -⟩ := exists_ofInt_bounds
  rw [Int.cast_inj.1 (h.unique (roundsTo_of_ofInt hmax hunits))]
  decide

/-- **An integer survives rounding and drawing to the bounds** just if it is a double, or the
greatest one. -/
theorem Double.RoundsTo.clamp_eq_iff {i : Int64} {r : Int} (h : RoundsTo i.toInt r) :
    max (-2 ^ (63 : Nat)) (min r (2 ^ (63 : Nat) - 1)) = i.toInt ↔
      (∃ d : Double, d.value? = some (i.toInt : ℚ)) ∨ i = Int64.maxValue := by
  have hlo := i.le_toInt
  have hhi := i.toInt_lt
  constructor
  · intro hclamp
    obtain ⟨s, m, k, hofInt, -, hk, hvalue, hrounds⟩ := exists_ofInt_eq i
    obtain rfl : r = signed s k := Int.cast_inj.1 (h.unique hrounds)
    by_cases hexact : signed s k = i.toInt
    · left
      refine ⟨ofInt i.toInt, ?_⟩
      rw [hofInt, value?, hvalue, hexact]
    · -- what was drawn back was above the upper bound
      right
      have hbounds : -2 ^ (63 : Nat) ≤ signed s k ∧ signed s k ≤ 2 ^ (63 : Nat) := by
        cases s with
        | false =>
            rw [signed_false]
            omega
        | true =>
            rw [signed_true]
            omega
      apply Int64.toInt_inj.1
      rw [Int64.toInt_maxValue]
      omega
  · rintro (⟨d, hd⟩ | rfl)
    · have hr : r = i.toInt := Int.cast_inj.1 (h.eq_of_value? hd)
      omega
    · rw [h.eq_of_maxValue, Int64.toInt_maxValue]
      decide

/-! ## The print line -/

namespace Step

/-- **When a print shows an integer variable exactly.**  A print of a variable of kind int shows the
integer that its value is rounded to, as a double and of two nearest ones the even one, drawn to the
bounds of 64 bits.  This is the text that the table has for the variable just if its value is a
double or the greatest integer. -/
theorem shows_rounded_variable (lenient : Bool) (t : Table) (number : Int) (name : Bytes)
    (i : Int64) (hname : IsLexeme .ident name) (hvalue : t.find? name = some (.int i)) :
    let line := LineKind.printLine name
    let s := ofLine lenient t number line
    (s.output = [line, utf8 "Result: " ++ (Value.int i).toText, []] ↔
      (∃ d : Double, d.value? = some (i.toInt : ℚ)) ∨ i = Int64.maxValue) ∧
    (∃ r : Int, Double.RoundsTo i.toInt r) ∧
    ∀ r : Int, Double.RoundsTo i.toInt r →
      s.Shows t line (Bytes.ofInt (max (-2 ^ (63 : Nat)) (min r (2 ^ (63 : Nat) - 1)))) := by
  intro line s
  have hspells := hname.spells (by simp) (by simp)
  have hshows : ∀ r : Int, Double.RoundsTo i.toInt r →
      s.Shows t line (Bytes.ofInt (max (-2 ^ (63 : Nat)) (min r (2 ^ (63 : Nat) - 1)))) :=
    fun r hr => shows_name hspells hvalue (Value.toText?_toResult_int hr)
  obtain ⟨neg, _, k, -, -, -, -, hrounds⟩ := Double.exists_ofInt_eq i
  refine ⟨?_, ⟨Double.signed neg k, hrounds⟩, hshows⟩
  rw [← hrounds.clamp_eq_iff, (hshows _ hrounds).output, Value.toText]
  constructor
  · intro h
    have htext := (List.cons.inj (List.cons.inj h).2).1
    exact Bytes.ofInt_injective (List.append_cancel_left htext)
  · intro h
    rw [h]

/-- An odd integer of 54 bits is rounded to the even one below it; the greatest integer of all keeps
its text. -/
theorem shows_rounded_variable_odd :
    let odd : Table := ⟨[⟨"x", .int 9007199254740993, 1⟩], by decide⟩
    let greatest : Table := ⟨[⟨"x", .int Int64.maxValue, 1⟩], by decide⟩
    (ofLine false odd 2 (utf8 "print(x);")).Shows odd (utf8 "print(x);")
      (utf8 "9007199254740992") ∧
    (ofLine true greatest 2 (utf8 "print(x);")).output =
      [utf8 "print(x);", utf8 "Result: 9223372036854775807", []] := by
  intro odd greatest
  have hname : IsLexeme .ident (utf8 "x") := ⟨1, utf8 "x", ⟨.ident, "x", 1, 1⟩, by decide +kernel⟩
  have heven : Double.ofInt (9007199254740993 : Int64).toInt = .finite false
      ⟨2 ^ (52 : Nat), 1075, by decide, by decide, .inr (Nat.le_refl _)⟩ := by
    decide +kernel
  have hrounds := Double.roundsTo_of_ofInt (k := 9007199254740992) heven (by decide +kernel)
  obtain ⟨-, -, hshows⟩ := shows_rounded_variable false odd 2 _ 9007199254740993 hname (by decide)
  obtain ⟨hexact, -, -⟩ := shows_rounded_variable true greatest 2 _ Int64.maxValue hname (by decide)
  have htext : Bytes.ofInt (max (-2 ^ (63 : Nat)) (min (Double.signed false 9007199254740992)
      (2 ^ (63 : Nat) - 1))) = utf8 "9007199254740992" := by
    decide +kernel
  have hgreatest : utf8 "Result: " ++ (Value.int Int64.maxValue).toText =
      utf8 "Result: 9223372036854775807" := by
    decide +kernel
  constructor
  · rw [← htext]
    exact hshows _ hrounds
  · rw [← hgreatest]
    exact hexact.2 (.inr rfl)

end Step

end LineCalc
