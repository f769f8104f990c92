import LineCalc.Proofs.Decimal.Text
import LineCalc.Proofs.Double.Nearest
/-!
# The shape of decimal texts

A decimal is written in one of two forms: digits around a point, or a single digit, a point, digits
and an exponent.  The exponent agrees with the size of the double that is written, although its
digits were rounded.

* `Decimal.IsPlain`, `Decimal.IsScientific` : the two forms;
* `Decimal.units_le_of_le_order`, `Decimal.units_le_of_order_lt` : a decimal whose leading digit is
  at a power of ten is read as no less than that power, and one whose leading digit is below it as
  no more;
* `Decimal.le_order_shortest`, `Decimal.order_shortest_le` : where the leading digit of a shortest
  decimal is, outside the plain range.
-/
namespace LineCalc

namespace Bytes

/-! ## Digits -/

/-- Digits, at least one. -/
def IsDigits (ds : Bytes) : Prop := ds ≠ [] ∧ ∀ d ∈ ds, isDigit d

/-- Digits may come before others. -/
theorem IsDigits.append {ds es : Bytes} (hds : ∀ d ∈ ds, isDigit d) (hes : IsDigits es) :
    IsDigits (ds ++ es) :=
  ⟨by simp [hes.1], List.forall_mem_append.2 ⟨hds, hes.2⟩⟩

/-- A number is written with digits, and the first one is not zero unless the number is. -/
theorem exists_ofNat_eq_cons_of_ne_zero {n : Nat} (h : n ≠ 0) :
    ∃ d r, ofNat n = d :: r ∧ d ≠ 0x30 := by
  induction n using ofNat.induct with
  | case1 n hn =>
      refine ⟨digit n, [], by rw [ofNat, if_pos hn], ?_⟩
      intro hzero
      have hvalue := digitValue_digit hn
      rw [hzero] at hvalue
      exact h hvalue.symm
  | case2 n hn ih =>
      obtain ⟨d, r, hdigits, hd⟩ := ih (by omega)
      exact ⟨d, r ++ [digit (n % 10)], by rw [ofNat, if_neg hn, hdigits, List.cons_append], hd⟩

/-- The digits of a number. -/
theorem isDigits_ofNat (n : Nat) : IsDigits (ofNat n) := by
  obtain ⟨d, r, h, -⟩ := exists_ofNat_eq_cons n
  exact ⟨by simp [h], isDigit_of_mem_ofNat n⟩

/-- An integer is written as its sign and the digits of its absolute value. -/
theorem ofInt_eq (i : Int) : ofInt i = Double.sign (i < 0) ++ ofNat i.natAbs := by
  cases i with
  | ofNat n => simp [ofInt, Double.sign]
  | negSucc n =>
      rw [decide_eq_true (Int.negSucc_lt_zero n)]
      rfl

end Bytes

namespace Decimal

/-! ## The two forms -/

/-- Digits around a point, at least one on either side. -/
def IsPlain (s : Bytes) : Prop :=
  ∃ ds fs, Bytes.IsDigits ds ∧ Bytes.IsDigits fs ∧ s = ds ++ utf8 "." ++ fs

/-- One digit other than zero, a point, digits, `E` and the exponent `e`: perhaps a minus, and
digits without a zero in front. -/
def IsScientific (s : Bytes) (e : Int) : Prop :=
  ∃ n fs negative x xs, Bytes.isDigit n ∧ n ≠ 0x30 ∧ Bytes.IsDigits fs ∧
    Bytes.IsDigits (x :: xs) ∧ x ≠ 0x30 ∧ e = Double.signed negative (Bytes.toNat (x :: xs)) ∧
    s = [n] ++ utf8 "." ++ fs ++ utf8 "E" ++ (if negative then utf8 "-" else []) ++ x :: xs

/-- Either form has a point. -/
theorem IsPlain.mem {s : Bytes} (h : IsPlain s) : 0x2e ∈ s := by
  obtain ⟨ds, fs, -, -, rfl⟩ := h
  have hpoint : utf8 "." = [0x2e] := by decide
  simp [hpoint]

/-- Either form has a point. -/
theorem IsScientific.mem {s : Bytes} {e : Int} (h : IsScientific s e) : 0x2e ∈ s := by
  obtain ⟨n, fs, negative, x, xs, -, -, -, -, -, -, rfl⟩ := h
  have hpoint : utf8 "." = [0x2e] := by decide
  simp [hpoint]

/-- Positional texts are plain. -/
theorem positional_isPlain (d : Decimal) : IsPlain d.positional := by
  unfold positional
  extract_lets ds places
  have hdigits : Bytes.IsDigits ds := Bytes.isDigits_ofNat d.coefficient
  split
  · have htext : utf8 ".0" = utf8 "." ++ utf8 "0" := by decide
    refine ⟨ds ++ List.replicate d.exponent.toNat 0x30, utf8 "0", ?_, ?_, ?_⟩
    · refine ⟨by simp [hdigits.1], List.forall_mem_append.2 ⟨hdigits.2, ?_⟩⟩
      exact Bytes.isDigit_of_mem_zeros _
    · exact ⟨by decide, by decide⟩
    · simp only [htext, List.append_assoc]
  · split
    · next he hlt =>
        have hplaces : 0 < places := by simp only [places]; omega
        refine ⟨_, _, ⟨?_, ?_⟩, ⟨?_, ?_⟩, rfl⟩
        · apply List.ne_nil_of_length_pos
          rw [List.length_take]
          omega
        · exact fun d hd => hdigits.2 d (List.mem_of_mem_take hd)
        · apply List.ne_nil_of_length_pos
          rw [List.length_drop]
          omega
        · exact fun d hd => hdigits.2 d (List.mem_of_mem_drop hd)
    · have htext : utf8 "0." = utf8 "0" ++ utf8 "." := by decide
      refine ⟨utf8 "0", _, ⟨by decide, by decide⟩,
        Bytes.IsDigits.append (Bytes.isDigit_of_mem_zeros (places - ds.length)) hdigits, ?_⟩
      simp only [htext, List.append_assoc]

/-- Scientific texts have the exponent of the leading digit, unless that is a one. -/
theorem scientific_isScientific {d : Decimal} (hc : d.coefficient ≠ 0) (ho : d.order ≠ 0) :
    IsScientific d.scientific d.order := by
  obtain ⟨n, r, hdigits, hn⟩ := Bytes.exists_ofNat_eq_cons_of_ne_zero hc
  obtain ⟨x, xs, hexponent, hx⟩ :=
    Bytes.exists_ofNat_eq_cons_of_ne_zero (Int.natAbs_ne_zero.2 ho)
  have hall := Bytes.isDigit_of_mem_ofNat d.coefficient
  have hxall := Bytes.isDigits_ofNat d.order.natAbs
  have hlength := Bytes.length_ofNat d.coefficient
  have hxnumber := Bytes.toNat_ofNat d.order.natAbs
  unfold scientific
  extract_lets ds fraction
  have horder : d.exponent + ds.length - 1 = d.order := by
    rw [order, ← hlength]
  have hfront : ds.take 1 = [n] := by simp [ds, hdigits]
  rw [hexponent] at hxall hxnumber
  rw [hdigits] at hall
  refine ⟨n, fraction, d.order < 0, x, xs, hall n List.mem_cons_self, hn, ?_, hxall, hx, ?_, ?_⟩
  · simp only [fraction]
    split
    · exact ⟨by decide, by decide⟩
    · next hone =>
        refine ⟨?_, fun b hb => hall b ?_⟩
        · apply List.ne_nil_of_length_pos
          simp only [ds, hdigits, List.length_cons] at hone
          simp only [ds, hdigits, List.length_drop, List.length_cons]
          omega
        · rw [← hdigits]
          exact List.mem_of_mem_drop hb
  · rw [hxnumber, Double.signed_natAbs]
  · have hminus : Double.sign (d.order < 0) = if d.order < 0 then utf8 "-" else [] := by
      have htext : utf8 "-" = [0x2d] := by decide
      simp [Double.sign, htext]
    rw [horder, hfront, Bytes.ofInt_eq, hexponent, hminus, ← List.append_assoc]
    simp only [decide_eq_true_eq]

/-! ## Where the leading digit is -/

/-- A number other than zero is at least the power of ten of its leading digit. -/
theorem pow_le_of_length {n k : Nat} (h : n ≠ 0) (hk : k < length n) : 10 ^ k ≤ n := by
  rcases Nat.eq_zero_or_pos k with rfl | hpos
  · rw [Nat.pow_zero]
    omega
  · by_contra hlt
    exact absurd (length_le hpos (Nat.not_le.1 hlt)) (Nat.not_le.2 hk)

/-- It is less than the next one. -/
theorem lt_pow_length (n : Nat) : n < 10 ^ length n := by
  have hlt := Bytes.toNat_lt (Bytes.isDigit_of_mem_ofNat n)
  rwa [Bytes.toNat_ofNat, Bytes.length_ofNat] at hlt

variable {d : Decimal} {m b : Magnitude} {p : Int}

/-- A decimal whose leading digit is at a power of ten or above is read as no less than that
power. -/
theorem units_le_of_le_order (hc : d.coefficient ≠ 0) (hm : d.toMagnitude? = some m)
    (hb : toMagnitude? ⟨1, p⟩ = some b) (h : p ≤ d.order) : b.units ≤ m.units := by
  unfold toMagnitude? at hm hb
  rw [quotient_eq] at hm hb
  refine Magnitude.round_mono (Nat.pow_pos (by decide)) (Nat.pow_pos (by decide)) ?_ hb hm
  have hlength := length_pos d.coefficient
  unfold order at h
  have hle := pow_le_of_length (k := length d.coefficient - 1) hc (by omega)
  have hexponents : p.toNat + (-d.exponent).toNat ≤
      length d.coefficient - 1 + (d.exponent.toNat + (-p).toNat) := by omega
  calc 1 * 10 ^ p.toNat * unitsPerOne * 10 ^ (-d.exponent).toNat
      = 10 ^ (p.toNat + (-d.exponent).toNat) * unitsPerOne := by ring
    _ ≤ 10 ^ (length d.coefficient - 1 + (d.exponent.toNat + (-p).toNat)) * unitsPerOne :=
        Nat.mul_le_mul_right _ (Nat.pow_le_pow_right (by decide) hexponents)
    _ = 10 ^ (length d.coefficient - 1) *
          (10 ^ d.exponent.toNat * unitsPerOne * 10 ^ (-p).toNat) := by ring
    _ ≤ d.coefficient * (10 ^ d.exponent.toNat * unitsPerOne * 10 ^ (-p).toNat) :=
        Nat.mul_le_mul_right _ hle
    _ = d.coefficient * 10 ^ d.exponent.toNat * unitsPerOne * 10 ^ (-p).toNat := by ring

/-- A decimal whose leading digit is below a power of ten is read as no more than that power. -/
theorem units_le_of_order_lt (hm : d.toMagnitude? = some m)
    (hb : toMagnitude? ⟨1, p⟩ = some b) (h : d.order < p) : m.units ≤ b.units := by
  unfold toMagnitude? at hm hb
  rw [quotient_eq] at hm hb
  refine Magnitude.round_mono (Nat.pow_pos (by decide)) (Nat.pow_pos (by decide)) ?_ hm hb
  unfold order at h
  have hle := (lt_pow_length d.coefficient).le
  have hexponents : length d.coefficient + (d.exponent.toNat + (-p).toNat) ≤
      p.toNat + (-d.exponent).toNat := by omega
  calc d.coefficient * 10 ^ d.exponent.toNat * unitsPerOne * 10 ^ (-p).toNat
      = d.coefficient * (10 ^ d.exponent.toNat * unitsPerOne * 10 ^ (-p).toNat) := by ring
    _ ≤ 10 ^ length d.coefficient * (10 ^ d.exponent.toNat * unitsPerOne * 10 ^ (-p).toNat) :=
        Nat.mul_le_mul_right _ hle
    _ = 10 ^ (length d.coefficient + (d.exponent.toNat + (-p).toNat)) * unitsPerOne := by ring
    _ ≤ 10 ^ (p.toNat + (-d.exponent).toNat) * unitsPerOne :=
        Nat.mul_le_mul_right _ (Nat.pow_le_pow_right (by decide) hexponents)
    _ = 1 * 10 ^ p.toNat * unitsPerOne * 10 ^ (-d.exponent).toNat := by ring

/-- The shortest decimal of a magnitude is not zero, unless that is. -/
theorem coefficient_shortest_ne_zero (h : m.units ≠ 0) : (shortest m).coefficient ≠ 0 := by
  intro hzero
  have hread := toMagnitude?_shortest m
  have hround : ∀ {den}, 0 < den → Magnitude.round 0 den = some .zero := by
    intro den hden
    have hunits : Magnitude.zero.units = 0 := Magnitude.units_eq_zero_iff.2 rfl
    rw [← Magnitude.round_units .zero, hunits]
    exact Magnitude.round_congr hden Nat.one_pos (by rw [Nat.zero_mul, Nat.zero_mul])
  unfold toMagnitude? at hread
  rw [quotient_eq, hzero, Nat.zero_mul, Nat.zero_mul, hround (Nat.pow_pos (by decide))] at hread
  rw [← Option.some.inj hread] at h
  exact h rfl

/-- **From ten million on the exponent is at least seven.** -/
theorem le_order_shortest (h : 10 ^ (7 : Nat) * unitsPerOne ≤ m.units) :
    7 ≤ (shortest m).order := by
  obtain ⟨b, hb, hunits, hshortest⟩ : ∃ b : Magnitude, toMagnitude? ⟨1, 7⟩ = some b ∧
      b.units = 10 ^ (7 : Nat) * unitsPerOne ∧ (shortest b).order = 7 :=
    ⟨⟨0x1312d000000000, 1045, by decide, by decide, .inr (by decide)⟩, by decide +kernel,
      by decide +kernel, by decide +kernel⟩
  by_contra hlt
  -- what is rounded up to ten million is ten million, and written as such
  have hle := units_le_of_order_lt (toMagnitude?_shortest m) hb (Int.not_le.1 hlt)
  obtain rfl : m = b := Magnitude.units_injective (by omega)
  omega

/-- **Below a thousandth the exponent is at most minus four.** -/
theorem order_shortest_le (hzero : m.units ≠ 0) (h : 1000 * m.units < unitsPerOne) :
    (shortest m).order ≤ -4 := by
  obtain ⟨b, hb, hunits⟩ : ∃ b : Magnitude, toMagnitude? ⟨1, -3⟩ = some b ∧
      unitsPerOne ≤ 1000 * b.units :=
    ⟨⟨0x10624dd2f1a9fc, 1012, by decide, by decide, .inr (by decide)⟩, by decide +kernel,
      by decide +kernel⟩
  by_contra hlt
  -- a thousandth itself is rounded up, so nothing below it is read from there
  have hle := units_le_of_le_order (coefficient_shortest_ne_zero hzero) (toMagnitude?_shortest m)
    hb (by omega)
  omega

end Decimal

end LineCalc
