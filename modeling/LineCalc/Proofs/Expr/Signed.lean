import LineCalc.Proofs.Expr.Leaves
import LineCalc.Proofs.Expr.Shown
import LineCalc.Proofs.Literal
import LineCalc.Proofs.Statement.Grammar
import LineCalc.Proofs.Token.Layout
/-!
# Numbers with a sign

A declaration reads a literal in one piece, with its sign.  In an expression a sign is an operator:
the number is read alone, and the sign is applied to its value.  Both come to the same, but for one
literal: the number behind the minus of the least integer is out of range.

* `Literal.ofTexts`, `Expr.ofTexts` : a number behind a sign, taken either way;
* `readInt?_number`, `readDouble?_number` : reading it in one piece;
* `Expr.exists_eval_of_read?`, `Expr.exists_eval_error_of_read?` : the other way does the same;
* `Expr.eval_of_isLeast` : but for the least integer.
-/
namespace LineCalc

/-! ## Reading in one piece -/

section Reading

variable {sign digits : Bytes}

/-- A number is digits, perhaps around a point. -/
theorem Layout.digit_or_point (h : Layout.Spells .number digits) :
    (∃ d r, Bytes.isDigit d ∧ digits = d :: r) ∧ ∀ b ∈ digits, Bytes.isDigit b ∨ b = 0x2e := by
  obtain ⟨d, ds, hd, hds, hshape⟩ := h
  have hwhole : ∀ b ∈ d :: ds, Bytes.isDigit b ∨ b = 0x2e :=
    List.forall_mem_cons.2 ⟨.inl hd, fun b hb => .inl (hds b hb)⟩
  rcases hshape with rfl | ⟨fs, hfs, rfl⟩
  · exact ⟨⟨d, ds, hd, rfl⟩, hwhole⟩
  · refine ⟨⟨d, _, hd, rfl⟩, ?_⟩
    rw [← List.cons_append]
    exact List.forall_mem_append.2 ⟨hwhole,
      List.forall_mem_cons.2 ⟨.inr rfl, fun b hb => .inl (hfs b hb)⟩⟩

/-- A sign is a plus or a minus. -/
theorem IsSign.eq_of_mem (hs : IsSign sign) {b : UInt8} (hb : b ∈ sign) : b = 0x2b ∨ b = 0x2d := by
  rcases hs with rfl | rfl | rfl
  · cases hb
  · exact .inl (List.mem_singleton.1 hb)
  · exact .inr (List.mem_singleton.1 hb)

/-- The sign of a number is split off. -/
theorem splitSign_number (hs : IsSign sign) (hd : Layout.Spells .number digits) :
    splitSign (sign ++ digits) = (decide (sign = utf8 "-"), digits) := by
  obtain ⟨⟨d, r, hdigit, rfl⟩, -⟩ := Layout.digit_or_point hd
  rcases hs with rfl | rfl | rfl
  · exact splitSign_cons hdigit r
  · rfl
  · rfl

/-- A number without a point is an integer, if that has 64 bits. -/
theorem readInt?_number (hs : IsSign sign) (hd : Layout.Spells .number digits)
    (hpoint : 0x2e ∉ digits) : readInt? (sign ++ digits) =
      if -2 ^ (63 : Nat) ≤ Double.signed (sign = utf8 "-") (Bytes.toNat digits) ∧
          Double.signed (sign = utf8 "-") (Bytes.toNat digits) < 2 ^ (63 : Nat) then
        some (Int64.ofInt (Double.signed (sign = utf8 "-") (Bytes.toNat digits)))
      else none := by
  have hsplit := splitSign_number hs hd
  obtain ⟨⟨d, r, -, hcons⟩, hbytes⟩ := Layout.digit_or_point hd
  have hform : (digits.isEmpty || !digits.all Bytes.isDigit) = false := by
    have hall : digits.all Bytes.isDigit = true := by
      rw [List.all_eq_true]
      intro b hb
      refine (hbytes b hb).resolve_right ?_
      rintro rfl
      exact hpoint hb
    rw [hall, hcons]
    rfl
  unfold readInt?
  rw [hsplit]
  simp only [hform, Bool.false_eq_true, if_false]

/-- A number is a magnitude with its sign, if that is in range. -/
theorem readDouble?_number (hs : IsSign sign) (hd : Layout.Spells .number digits) :
    readDouble? (sign ++ digits) =
      (readMagnitude? digits).map (.finite (decide (sign = utf8 "-"))) := by
  have hsplit := splitSign_number hs hd
  obtain ⟨⟨d, r, hdigit, hcons⟩, hbytes⟩ := Layout.digit_or_point hd
  have hnamed : readNamed? (sign ++ digits) = none := by
    rw [hcons]
    exact readNamed?_eq_none hs hdigit r
  refine readDouble?_of_splitSign hnamed ?_ hsplit
  refine List.forall_mem_append.2 ⟨?_, ?_⟩
  · rintro b hb rfl
    rcases hs.eq_of_mem hb with h | h <;> cases h
  · rintro b hb rfl
    rcases hbytes _ hb with h | h <;> cases h

end Reading

/-! ## Signs of doubles -/

namespace Double

/-- A double with its sign turned around, or not. -/
def withSign (negative : Bool) (x : Double) : Double := if negative then -x else x

/-- A magnitude takes the sign. -/
theorem withSign_finite (negative : Bool) (m : Magnitude) :
    withSign negative (finite false m) = finite negative m := by
  cases negative with
  | false => rfl
  | true => rfl

/-- An integer other than zero is rounded alike with either sign. -/
theorem withSign_ofInt (negative : Bool) {n : Nat} (hn : n ≠ 0) :
    withSign negative (ofInt n) = ofInt (signed negative n) := by
  have hpos : ofInt n = round false (n * unitsPerOne) 1 := by
    rw [ofInt, decide_eq_false (by omega), Int.natAbs_natCast]
  cases negative with
  | false => simp only [withSign, signed, Bool.false_eq_true, if_false]
  | true =>
      have hneg : ofInt (signed true n) = round true (n * unitsPerOne) 1 := by
        rw [ofInt, signed, if_pos rfl, decide_eq_true (by omega), Int.natAbs_neg,
          Int.natAbs_natCast]
      rw [hneg, hpos, withSign, if_pos rfl, round, round]
      cases Magnitude.round (n * unitsPerOne) 1 with
      | none => rfl
      | some m => rfl

end Double

/-- Zero is shown without its sign. -/
theorem Result.toText?_zero (negative : Bool) :
    toText? ⟨.finite negative .zero, true⟩ = toText? ⟨.finite false .zero, true⟩ := by
  have hunits : Magnitude.zero.units / unitsPerOne = 0 := by
    rw [Magnitude.units_eq_zero_iff.2 rfl, Nat.zero_div]
  rw [toText?_finite, toText?_finite, hunits, Double.signed_zero, Double.signed_zero]

/-- **A sign is applied to an integer before or after rounding**, and the same is shown. -/
theorem Result.toText?_withSign (negative : Bool) (n : Nat) :
    toText? ⟨.withSign negative (.ofInt n), true⟩ =
      toText? ⟨.ofInt (Double.signed negative n), true⟩ := by
  by_cases hn : n = 0
  · rw [hn, Double.signed_zero, Int.natCast_zero, Double.ofInt_zero, Double.zero,
      Double.withSign_finite, toText?_zero]
  · rw [Double.withSign_ofInt negative hn]

/-! ## A number behind a sign -/

/-- The token of a number. -/
def numberToken (digits : Bytes) : Token := ⟨.number, digits, 0, 1⟩

/-- The token of a sign. -/
def signToken (sign : Bytes) : Token :=
  ⟨if sign = utf8 "-" then .minus else .plus, sign, 0, 0⟩

/-- The number with its sign as a literal. -/
def Literal.ofTexts (sign digits : Bytes) : Literal :=
  ⟨if sign = [] then none else some (signToken sign), numberToken digits⟩

/-- The number as an expression, its sign as an operator. -/
def Expr.ofTexts (sign digits : Bytes) : Expr :=
  if sign = [] then .number ⟨none, numberToken digits⟩
  else .unary (signToken sign) (.number ⟨none, numberToken digits⟩)

/-- The kind that a number is read at. -/
def numberKind (digits : Bytes) : Kind := if 0x2e ∈ digits then .double else .int

/-- The literal is the least integer of 64 bits, with any zeros in front. -/
def IsLeastInteger (sign digits : Bytes) : Prop :=
  sign = utf8 "-" ∧ 0x2e ∉ digits ∧ Bytes.toNat digits = 2 ^ (63 : Nat)

/-- Whether a literal is the least integer can be computed. -/
instance (sign digits : Bytes) : Decidable (IsLeastInteger sign digits) :=
  inferInstanceAs (Decidable (sign = utf8 "-" ∧ 0x2e ∉ digits ∧
    Bytes.toNat digits = 2 ^ (63 : Nat)))

namespace Expr

variable {sign digits : Bytes} {t : Table}

/-- The sign is applied to the value of the number. -/
theorem eval_ofTexts (hs : IsSign sign) : (ofTexts sign digits).eval t =
    (evalLiteral ⟨none, numberToken digits⟩).map fun r =>
      ⟨.withSign (decide (sign = utf8 "-")) r.value, r.isInteger⟩ := by
  have happly : ∀ x, applyUnary (signToken sign).kind x =
      .withSign (decide (sign = utf8 "-")) x := by
    intro x
    rcases hs with rfl | rfl | rfl <;> rfl
  unfold ofTexts
  split
  · next hempty =>
      subst hempty
      rw [eval]
      cases evalLiteral ⟨none, numberToken digits⟩ with
      | error d => rfl
      | ok r => rfl
  · rw [eval, eval]
    simp only [happly]
    rfl

/-- A number with a point has the value that its literal is read as. -/
theorem eval_ofTexts_of_mem (hs : IsSign sign) (hd : Layout.Spells .number digits)
    (hpoint : 0x2e ∈ digits) : (ofTexts sign digits).eval t =
      match readDouble? (sign ++ digits) with
      | some x => .ok ⟨x, false⟩
      | none => .error (Leaf.number ⟨none, numberToken digits⟩).complaint := by
  have hnumber : evalLiteral ⟨none, numberToken digits⟩ = _ :=
    Leaf.eval_number_of_mem (t := t) (l := ⟨none, numberToken digits⟩) hpoint
  have htext : Literal.text ⟨none, numberToken digits⟩ = digits := rfl
  have halone : readDouble? digits = (readMagnitude? digits).map (.finite false) :=
    readDouble?_number (.inl rfl) hd
  rw [eval_ofTexts hs, readDouble?_number hs hd, hnumber, htext, halone]
  cases readMagnitude? digits with
  | none => rfl
  | some m => simp [Except.map, Double.withSign_finite]

/-- A number without a point has the value of its digits with the sign, if that of the digits alone
has 64 bits. -/
theorem eval_ofTexts_of_notMem (hs : IsSign sign) (hd : Layout.Spells .number digits)
    (hpoint : 0x2e ∉ digits) : (ofTexts sign digits).eval t =
      if Bytes.toNat digits < 2 ^ (63 : Nat) then
        .ok ⟨.withSign (decide (sign = utf8 "-")) (.ofInt (Bytes.toNat digits)), true⟩
      else .error (Leaf.number ⟨none, numberToken digits⟩).complaint := by
  have hnumber : evalLiteral ⟨none, numberToken digits⟩ = _ :=
    Leaf.eval_number_of_notMem (t := t) (l := ⟨none, numberToken digits⟩) hpoint
  have htext : Literal.text ⟨none, numberToken digits⟩ = digits := rfl
  have halone : readInt? digits = if Bytes.toNat digits < 2 ^ (63 : Nat) then
      some (Int64.ofInt (Bytes.toNat digits)) else none := by
    have hread := readInt?_number (.inl rfl) hd hpoint
    have hsigned : Double.signed (decide (([] : Bytes) = utf8 "-")) (Bytes.toNat digits) =
        Bytes.toNat digits := rfl
    rw [List.nil_append, hsigned] at hread
    rw [hread]
    exact if_congr (by omega) rfl rfl
  rw [eval_ofTexts hs, hnumber, htext, halone]
  by_cases hlt : Bytes.toNat digits < 2 ^ (63 : Nat)
  · have hvalue : (Int64.ofInt (Bytes.toNat digits)).toInt = Bytes.toNat digits :=
      Int64.toInt_ofInt_of_le (by omega) (by omega)
    rw [if_pos hlt, if_pos hlt]
    simp only [Except.map, hvalue]
  · rw [if_neg hlt, if_neg hlt]
    rfl

/-! ## Both ways come to the same -/

/-- Of a literal that is read the digits alone have 64 bits, unless it is the least integer. -/
theorem toNat_lt_of_readInt? (hs : IsSign sign) (hd : Layout.Spells .number digits)
    (hpoint : 0x2e ∉ digits) {i : Int64} (hi : readInt? (sign ++ digits) = some i)
    (hleast : ¬ IsLeastInteger sign digits) : Bytes.toNat digits < 2 ^ (63 : Nat) ∧
      i.toInt = Double.signed (sign = utf8 "-") (Bytes.toNat digits) := by
  rw [readInt?_number hs hd hpoint] at hi
  split at hi
  · next hrange =>
      refine ⟨?_, ?_⟩
      · by_contra hge
        by_cases hsign : sign = utf8 "-"
        · rw [decide_eq_true hsign, Double.signed_true] at hrange
          exact hleast ⟨hsign, hpoint, by omega⟩
        · rw [decide_eq_false hsign, Double.signed_false] at hrange
          omega
      · rw [← Option.some.inj hi, Int64.toInt_ofInt_of_le hrange.1 hrange.2]
  · cases hi

/-- **A literal that is no value is no value of an expression.** -/
theorem exists_eval_error_of_read? (hs : IsSign sign) (hd : Layout.Spells .number digits)
    (h : Value.read? (numberKind digits) (sign ++ digits) = none) :
    ∃ d, (ofTexts sign digits).eval t = .error d ∧ d.code = .literal := by
  by_cases hpoint : 0x2e ∈ digits
  · rw [numberKind, if_pos hpoint, Value.read?, Option.map_eq_none_iff] at h
    rw [eval_ofTexts_of_mem hs hd hpoint, h]
    exact ⟨_, rfl, rfl⟩
  · rw [numberKind, if_neg hpoint, Value.read?, Option.map_eq_none_iff,
      readInt?_number hs hd hpoint] at h
    have hge : ¬ Bytes.toNat digits < 2 ^ (63 : Nat) := by
      intro hlt
      rw [if_pos (by unfold Double.signed; split <;> omega)] at h
      cases h
    rw [eval_ofTexts_of_notMem hs hd hpoint, if_neg hge]
    exact ⟨_, rfl, rfl⟩

/-- **A literal that is read is shown alike as an expression**, unless it is the least integer. -/
theorem exists_eval_of_read? (hs : IsSign sign) (hd : Layout.Spells .number digits) {v : Value}
    (h : Value.read? (numberKind digits) (sign ++ digits) = some v)
    (hleast : ¬ IsLeastInteger sign digits) :
    ∃ r, (ofTexts sign digits).eval t = .ok r ∧ r.toText? = v.toResult.toText? := by
  by_cases hpoint : 0x2e ∈ digits
  · rw [numberKind, if_pos hpoint] at h
    obtain ⟨x, hx, rfl⟩ := Option.map_eq_some_iff.1 h
    rw [eval_ofTexts_of_mem hs hd hpoint, hx]
    exact ⟨_, rfl, rfl⟩
  · rw [numberKind, if_neg hpoint] at h
    obtain ⟨i, hi, rfl⟩ := Option.map_eq_some_iff.1 h
    obtain ⟨hlt, hvalue⟩ := toNat_lt_of_readInt? hs hd hpoint hi hleast
    rw [eval_ofTexts_of_notMem hs hd hpoint, if_pos hlt]
    refine ⟨_, rfl, ?_⟩
    rw [Result.toText?_withSign, ← hvalue]
    rfl

/-- **The least integer is read**, but no value of an expression. -/
theorem eval_of_isLeast (hs : IsSign sign) (hd : Layout.Spells .number digits)
    (h : IsLeastInteger sign digits) :
    (∃ v, Value.read? (numberKind digits) (sign ++ digits) = some v) ∧
      ∃ d, (ofTexts sign digits).eval t = .error d ∧ d.code = .literal := by
  obtain ⟨hminus, hpoint, hvalue⟩ := h
  have hsigned : Double.signed (decide (sign = utf8 "-")) (2 ^ (63 : Nat)) = -2 ^ (63 : Nat) := by
    rw [decide_eq_true hminus]
    decide
  constructor
  · rw [numberKind, if_neg hpoint, Value.read?, readInt?_number hs hd hpoint, hvalue, hsigned,
      if_pos (by omega)]
    exact ⟨_, rfl⟩
  · rw [eval_ofTexts_of_notMem hs hd hpoint, if_neg (by omega)]
    exact ⟨_, rfl, rfl⟩

end Expr

end LineCalc
