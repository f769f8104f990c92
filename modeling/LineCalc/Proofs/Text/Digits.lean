import LineCalc.Proofs.Literal
/-!
# Digits

Numbers are written with decimal digits, and what is written is read back as the same number.

* `Bytes.toNat_ofNat` : the digits of a number write that number;
* `Bytes.length_ofNat` : how many there are;
* `splitSign_ofInt`, `readInt?_ofInt` : the text of an integer is read as that integer;
* `Bytes.ofInt_injective` : it is the text of no other one.
-/
namespace LineCalc

namespace Bytes

/-! ## Single digits -/

/-- The byte of a digit. -/
theorem toNat_digit {d : Nat} (h : d < 10) : (digit d).toNat = 0x30 + d := by
  rw [digit, UInt8.toNat_ofNat']
  omega

/-- The digit of a number below ten. -/
theorem isDigit_digit {d : Nat} (h : d < 10) : isDigit (digit d) := by
  have h₁ : (0x30 : UInt8).toNat = 48 := rfl
  have h₂ : (0x39 : UInt8).toNat = 57 := rfl
  simp only [isDigit, Bool.and_eq_true, decide_eq_true_eq, UInt8.le_iff_toNat_le, toNat_digit h]
  omega

/-- A digit has the value it was made of. -/
theorem digitValue_digit {d : Nat} (h : d < 10) : digitValue (digit d) = d := by
  rw [digitValue, toNat_digit h]
  omega

/-! ## Lists of digits -/

/-- More digits shift the number of those before them. -/
theorem toNat_append (ds es : Bytes) : toNat (ds ++ es) = toNat ds * 10 ^ es.length + toNat es := by
  rw [toNat, List.foldl_append, foldl_digits]
  rfl

/-- Zeros are digits. -/
theorem isDigit_of_mem_zeros (k : Nat) : ∀ b ∈ List.replicate k (0x30 : UInt8), isDigit b := by
  intro b hb
  rw [List.eq_of_mem_replicate hb]
  rfl

/-- Zeros write zero. -/
theorem toNat_zeros (k : Nat) : toNat (List.replicate k 0x30) = 0 := by
  induction k with
  | zero => rfl
  | succ k ih =>
      rw [List.replicate_succ', toNat_append, ih]
      rfl

/-- The digits of a number are digits. -/
theorem isDigit_of_mem_ofNat (n : Nat) : ∀ b ∈ ofNat n, isDigit b := by
  induction n using ofNat.induct with
  | case1 n h =>
      rw [ofNat, if_pos h]
      exact List.forall_mem_singleton.2 (isDigit_digit h)
  | case2 n h ih =>
      rw [ofNat, if_neg h]
      refine List.forall_mem_append.2 ⟨ih, List.forall_mem_singleton.2 ?_⟩
      exact isDigit_digit (Nat.mod_lt _ (by decide))

/-- **The digits of a number write that number.** -/
theorem toNat_ofNat (n : Nat) : toNat (ofNat n) = n := by
  induction n using ofNat.induct with
  | case1 n h =>
      rw [ofNat, if_pos h]
      show 10 * 0 + digitValue (digit n) = n
      rw [digitValue_digit h]
      omega
  | case2 n h ih =>
      have hmod : n % 10 < 10 := Nat.mod_lt _ (by decide)
      have hlast : toNat [digit (n % 10)] = n % 10 := by
        show 10 * 0 + digitValue (digit (n % 10)) = n % 10
        rw [digitValue_digit hmod]
        omega
      rw [ofNat, if_neg h, toNat_append, ih, hlast, List.length_singleton]
      omega

/-- A number has as many digits as its length says. -/
theorem length_ofNat (n : Nat) : (ofNat n).length = Decimal.length n := by
  induction n using ofNat.induct with
  | case1 n h => rw [ofNat, if_pos h, Decimal.length, if_pos h, List.length_singleton]
  | case2 n h ih =>
      rw [ofNat, if_neg h, Decimal.length, if_neg h, List.length_append, ih, List.length_singleton]

end Bytes

/-- Every number has a digit. -/
theorem Decimal.length_pos (n : Nat) : 0 < length n := by
  rw [length]
  split
  · exact Nat.one_pos
  · exact Nat.succ_pos _

/-- A number below a power of ten has no more digits than that has zeros. -/
theorem Decimal.length_le {n k : Nat} (hk : 0 < k) (h : n < 10 ^ k) : length n ≤ k := by
  induction n using length.induct generalizing k with
  | case1 n hn =>
      rw [length, if_pos hn]
      exact hk
  | case2 n hn ih =>
      rw [length, if_neg hn]
      obtain ⟨j, rfl⟩ := Nat.exists_eq_succ_of_ne_zero (Nat.ne_of_gt hk)
      rw [Nat.pow_succ] at h
      by_cases hj : j = 0
      · subst hj
        omega
      · exact Nat.succ_le_succ (ih (Nat.pos_of_ne_zero hj) (Nat.div_lt_of_lt_mul (by omega)))

/-- The digits of a number, the first one apart. -/
theorem Bytes.exists_ofNat_eq_cons (n : Nat) : ∃ d r, ofNat n = d :: r ∧ isDigit d := by
  have hpos : 0 < (ofNat n).length := by
    rw [length_ofNat]
    exact Decimal.length_pos n
  obtain ⟨d, r, h⟩ := List.exists_cons_of_length_pos hpos
  refine ⟨d, r, h, isDigit_of_mem_ofNat n d ?_⟩
  rw [h]
  exact List.mem_cons_self

/-! ## Integers -/

/-- The text of an integer is its sign and the digits of its absolute value. -/
theorem splitSign_ofInt (i : Int) : splitSign (Bytes.ofInt i) =
    (decide (i < 0), Bytes.ofNat i.natAbs) := by
  cases i with
  | ofNat n =>
      obtain ⟨d, r, h, hd⟩ := Bytes.exists_ofNat_eq_cons n
      show splitSign (Bytes.ofNat n) = (decide ((n : Int) < 0), Bytes.ofNat n)
      rw [h, splitSign_cons hd, decide_eq_false (by omega)]
  | negSucc n =>
      rw [decide_eq_true (Int.negSucc_lt_zero n)]
      rfl

/-- The bytes that numbers are written with: digits, the point, the minus and the mark of an
exponent. -/
def Bytes.isNumeric (b : UInt8) : Bool := isDigit b || b == 0x2e || b == 0x2d || b == 0x45

/-- Digits are such bytes. -/
theorem Bytes.isNumeric_of_isDigit {b : UInt8} (h : isDigit b) : isNumeric b := by
  simp [isNumeric, h]

/-- Integers are written with such bytes. -/
theorem Bytes.isNumeric_of_mem_ofInt (i : Int) : ∀ b ∈ ofInt i, isNumeric b := by
  have hdigits : ∀ n, ∀ b ∈ ofNat n, isNumeric b :=
    fun n b hb => isNumeric_of_isDigit (isDigit_of_mem_ofNat n b hb)
  cases i with
  | ofNat n => exact hdigits n
  | negSucc n => exact List.forall_mem_cons.2 ⟨rfl, hdigits (n + 1)⟩

/-- Integers are written differently. -/
theorem Bytes.ofInt_injective {i j : Int} (h : ofInt i = ofInt j) : i = j := by
  have hsplit := splitSign_ofInt i
  rw [h, splitSign_ofInt j] at hsplit
  obtain ⟨hsign, hdigits⟩ := Prod.mk.inj hsplit
  have habs : j.natAbs = i.natAbs := by
    rw [← toNat_ofNat j.natAbs, hdigits, toNat_ofNat]
  rw [← Double.signed_natAbs i, ← Double.signed_natAbs j, hsign, habs]

/-- **The text of an integer is read as that integer.** -/
theorem readInt?_ofInt (i : Int64) : readInt? (Bytes.ofInt i.toInt) = some i := by
  have hlo := i.le_toInt
  have hhi := i.toInt_lt
  obtain ⟨d, r, hcons, -⟩ := Bytes.exists_ofNat_eq_cons i.toInt.natAbs
  have hne : Bytes.ofNat i.toInt.natAbs ≠ [] := by
    rw [hcons]
    exact List.cons_ne_nil d r
  have hvalue : Double.signed (i.toInt < 0) (Bytes.toNat (Bytes.ofNat i.toInt.natAbs)) =
      i.toInt := by
    rw [Bytes.toNat_ofNat, Double.signed_natAbs]
  rw [readInt?_of_splitSign (splitSign_ofInt i.toInt) hne (Bytes.isDigit_of_mem_ofNat _)
    (by rwa [hvalue]) (by rwa [hvalue]), hvalue, Int64.ofInt_toInt]

end LineCalc
