import LineCalc.Expr.Basic
import LineCalc.Value
import LineCalc.Proofs.Double.Finite
import Mathlib.Data.List.TakeWhile
/-!
# Literals that are read

A literal of few digits is always in range, so it is a value of its kind.

* `Bytes.foldl_digits`, `Bytes.toNat_lt` : what digits add to a number, and how large it is;
* `readInt?_isSome` : a sign and at most eighteen digits are an integer;
* `readDouble?_isSome` : a sign and digits around a point, at most thirty of them, are a
  double;
* `isFinite_of_readDouble?` : only a name is read as a double that is not finite.
-/
namespace LineCalc

/-- The kind that a literal of an expression is read at. -/
def Expr.literalKind (l : Literal) : Kind := if l.isFractional then .double else .int

/-- A value read at a kind is of that kind. -/
theorem Value.kind_of_read? {k : Kind} {s : Bytes} {v : Value} (h : Value.read? k s = some v) :
    v.kind = k := by
  cases k with
  | int =>
      obtain ⟨i, -, rfl⟩ := Option.map_eq_some_iff.1 h
      rfl
  | double =>
      obtain ⟨d, -, rfl⟩ := Option.map_eq_some_iff.1 h
      rfl

/-! ## Digits -/

/-- A digit is worth less than ten. -/
theorem Bytes.digitValue_lt {b : UInt8} (h : isDigit b) : digitValue b < 10 := by
  simp only [isDigit, Bool.and_eq_true, decide_eq_true_eq, UInt8.le_iff_toNat_le] at h
  have h₁ : (0x39 : UInt8).toNat = 57 := rfl
  unfold digitValue
  omega

/-- More digits shift what was read so far. -/
theorem Bytes.foldl_digits (es : Bytes) : ∀ n : Nat, es.foldl (fun n b => 10 * n + digitValue b) n =
    n * 10 ^ es.length + toNat es := by
  induction es with
  | nil => simp [toNat]
  | cons e es ih =>
      intro n
      have hcons : toNat (e :: es) = digitValue e * 10 ^ es.length + toNat es := by
        rw [← ih, toNat, List.foldl_cons, Nat.mul_zero, Nat.zero_add]
      rw [List.foldl_cons, ih, hcons, List.length_cons, Nat.pow_succ, Nat.add_mul,
        Nat.mul_comm 10 n, Nat.mul_assoc, Nat.mul_comm 10, Nat.add_assoc]

/-- A number of `n` digits is less than the `n`-th power of ten. -/
theorem Bytes.toNat_lt {ds : Bytes} (h : ∀ d ∈ ds, isDigit d) : toNat ds < 10 ^ ds.length := by
  induction ds with
  | nil => exact Nat.one_pos
  | cons d ds ih =>
      obtain ⟨hd, hds⟩ := List.forall_mem_cons.1 h
      have hrest := ih hds
      have hfirst : digitValue d * 10 ^ ds.length ≤ 9 * 10 ^ ds.length :=
        Nat.mul_le_mul_right _ (Nat.le_of_lt_succ (digitValue_lt hd))
      rw [toNat, List.foldl_cons, foldl_digits, Nat.mul_zero, Nat.zero_add, List.length_cons,
        Nat.pow_succ]
      omega

/-- The decimal digits are those of base ten. -/
theorem isDigitOf_false : isDigitOf false = Bytes.isDigit := by
  funext b
  simp [isDigitOf]

/-- Reading decimal digits skips everything else. -/
theorem readDigits_eq_toNat (s : Bytes) :
    readDigits false s = Bytes.toNat (s.filter Bytes.isDigit) := by
  have hfold : ∀ (ds : Bytes) (n : Nat), (∀ d ∈ ds, Bytes.isDigit d) →
      ds.foldl (fun n b => 10 * n + digitValueOf b) n =
        ds.foldl (fun n b => 10 * n + Bytes.digitValue b) n := by
    intro ds
    induction ds with
    | nil => exact fun n _ => rfl
    | cons d ds ih =>
        intro n hds
        obtain ⟨hd, hds⟩ := List.forall_mem_cons.1 hds
        have hvalue : digitValueOf d = Bytes.digitValue d := if_pos hd
        rw [List.foldl_cons, List.foldl_cons, hvalue, ih _ hds]
  rw [readDigits, isDigitOf_false]
  exact hfold _ 0 fun d hd => (List.mem_filter.1 hd).2

/-! ## Signs -/

/-- No sign, a plus or a minus. -/
def IsSign (s : Bytes) : Prop := s = [] ∨ s = utf8 "+" ∨ s = utf8 "-"

/-- A text that starts with a digit has no sign. -/
theorem splitSign_cons {d : UInt8} (hd : Bytes.isDigit d) (r : Bytes) :
    splitSign (d :: r) = (false, d :: r) := by
  unfold splitSign
  split
  · next h => cases h; cases hd
  · next h => cases h; cases hd
  · rfl

/-- The sign of a number is split off. -/
theorem splitSign_append {s : Bytes} (hs : IsSign s) {d : UInt8} (hd : Bytes.isDigit d)
    (ds : Bytes) : ∃ negative, splitSign (s ++ d :: ds) = (negative, d :: ds) := by
  rcases hs with rfl | rfl | rfl
  · exact ⟨false, splitSign_cons hd ds⟩
  · exact ⟨false, rfl⟩
  · exact ⟨true, rfl⟩

/-! ## Integers -/

/-- Digits behind a sign are an integer, if that has 64 bits. -/
theorem readInt?_of_splitSign {s ds : Bytes} {negative : Bool}
    (hsplit : splitSign s = (negative, ds)) (hne : ds ≠ []) (hds : ∀ d ∈ ds, Bytes.isDigit d)
    (hlo : -2 ^ (63 : Nat) ≤ Double.signed negative (Bytes.toNat ds))
    (hhi : Double.signed negative (Bytes.toNat ds) < 2 ^ (63 : Nat)) :
    readInt? s = some (Int64.ofInt (Double.signed negative (Bytes.toNat ds))) := by
  have hform : (ds.isEmpty || !ds.all Bytes.isDigit) = false := by
    rw [List.all_eq_true.2 hds, List.isEmpty_eq_false_iff.2 hne]
    rfl
  unfold readInt?
  rw [hsplit]
  simp only [hform, Bool.false_eq_true, if_false]
  exact if_pos ⟨hlo, hhi⟩

/-- A sign and at most eighteen digits are an integer. -/
theorem readInt?_isSome {s ds : Bytes} (hs : IsSign s) (hne : ds ≠ [])
    (hds : ∀ d ∈ ds, Bytes.isDigit d) (hlength : ds.length ≤ 18) :
    (readInt? (s ++ ds)).isSome := by
  have hlt : Bytes.toNat ds < 10 ^ (18 : Nat) :=
    lt_of_lt_of_le (Bytes.toNat_lt hds) (Nat.pow_le_pow_right (by decide) hlength)
  have hrange : ∀ negative, -2 ^ (63 : Nat) ≤ Double.signed negative (Bytes.toNat ds) ∧
      Double.signed negative (Bytes.toNat ds) < 2 ^ (63 : Nat) := by
    intro negative
    unfold Double.signed
    split <;> omega
  obtain ⟨d, r, rfl⟩ := List.exists_cons_of_ne_nil hne
  obtain ⟨negative, hsplit⟩ := splitSign_append hs (hds d List.mem_cons_self) r
  obtain ⟨hlo, hhi⟩ := hrange negative
  rw [readInt?_of_splitSign hsplit hne hds hlo hhi]
  rfl

/-! ## Doubles -/

/-- A decimal of at most thirty digits, all places behind the point, is a magnitude. -/
theorem Decimal.toMagnitude?_isSome {n : Nat} {exponent : Int} (hn : n < 10 ^ (30 : Nat))
    (hexponent : exponent ≤ 0) : (toMagnitude? ⟨n, exponent⟩).isSome := by
  have hround : ∀ {den}, 0 < den → (Magnitude.round (n * unitsPerOne) den).isSome := by
    intro den hden
    have hle : n * unitsPerOne ≤ 2 ^ (100 : Nat) * unitsPerOne * den := by
      rw [Nat.mul_assoc]
      exact Nat.mul_le_mul (by omega) (Nat.le_mul_of_pos_right _ hden)
    obtain ⟨s, m, hm, -⟩ := Double.atMost_round (s := false) hden (by decide) hle
    rw [Double.eq_some_of_round_eq_finite hm]
    rfl
  unfold toMagnitude? quotient
  split
  · next h =>
      obtain rfl : exponent = 0 := le_antisymm hexponent h
      simpa using hround Nat.one_pos
  · exact hround (Nat.pow_pos (by decide))

/-- The bytes of a decimal mantissa. -/
def isMantissa (b : UInt8) : Bool := Bytes.isDigit b || b == 0x5f || b == 0x2e

/-- A number without a base mark is read as a mantissa and an exponent. -/
theorem readMagnitude?_eq {s : Bytes} (hs : ∀ b ∈ s[1]?, Bytes.lower b ≠ 0x78) :
    readMagnitude? s =
      let mantissa := s.takeWhile isMantissa
      let rest := s.dropWhile isMantissa
      if mantissa.count 0x2e ≤ 1 && mantissa.any Bytes.isDigit then
        (if rest.isEmpty then some 0 else readExponentPart? 0x65 rest).bind fun e =>
          Decimal.toMagnitude? ⟨readDigits false mantissa,
            e - ((mantissa.dropWhile (· != 0x2e)).filter Bytes.isDigit).length⟩
      else none := by
  unfold readMagnitude?
  split
  next isHex r hbase =>
    obtain ⟨rfl, rfl⟩ : isHex = false ∧ r = s := by
      split at hbase
      · next b c r' =>
          have hb : Bytes.lower b ≠ 0x78 := hs b (by simp)
          simp [hb] at hbase
          exact ⟨hbase.1, hbase.2.symm⟩
      · cases hbase
        exact ⟨rfl, rfl⟩
    simp only [isDigitOf_false, Bool.not_false, Bool.and_true, Bool.false_eq_true, if_false,
      scaledMagnitude?]
    rfl

/-- Neither a digit nor a point is the `x` of a hexadecimal number. -/
theorem lower_ne_x {b : UInt8} (h : Bytes.isDigit b ∨ b = 0x2e) : Bytes.lower b ≠ 0x78 := by
  grind [Bytes.lower, Bytes.isDigit]

/-- Digits with at most one point among them are a magnitude. -/
theorem readMagnitude?_isSome {s : Bytes} (hs : ∀ b ∈ s, Bytes.isDigit b ∨ b = 0x2e)
    (hpoint : s.count 0x2e ≤ 1) (hdigit : s.any Bytes.isDigit)
    (hlength : (s.filter Bytes.isDigit).length ≤ 30) : (readMagnitude? s).isSome := by
  have hlt : readDigits false s < 10 ^ (30 : Nat) := by
    rw [readDigits_eq_toNat]
    refine lt_of_lt_of_le (Bytes.toNat_lt fun d hd => (List.mem_filter.1 hd).2) ?_
    exact Nat.pow_le_pow_right (by decide) hlength
  have hmantissa : ∀ b ∈ s, isMantissa b = true := by
    intro b hb
    rcases hs b hb with h | h <;> simp [isMantissa, h]
  have hwhole : s.takeWhile isMantissa = s := List.takeWhile_eq_self_iff.2 hmantissa
  have hrest : s.dropWhile isMantissa = [] := List.dropWhile_eq_nil_iff.2 hmantissa
  have hform : (decide (s.count 0x2e ≤ 1) && s.any Bytes.isDigit) = true := by
    rw [hdigit, decide_eq_true hpoint]
    rfl
  rw [readMagnitude?_eq fun b hb => lower_ne_x (hs b (List.mem_of_getElem? hb))]
  simp only [hwhole, hrest]
  rw [if_pos hform, List.isEmpty_nil, if_pos rfl, Option.bind_some]
  exact Decimal.toMagnitude?_isSome hlt (by omega)

/-- A number that starts with a digit is no name. -/
theorem readNamed?_eq_none {s : Bytes} (hs : IsSign s) {d : UInt8} (hd : Bytes.isDigit d)
    (r : Bytes) : readNamed? (s ++ d :: r) = none := by
  obtain ⟨negative, hsplit⟩ := splitSign_append hs hd r
  have hlower : Bytes.lower d = d := by grind [Bytes.lower, Bytes.isDigit]
  have hdi : d ≠ 0x69 := by rintro rfl; cases hd
  have hdn : d ≠ 0x6e := by rintro rfl; cases hd
  have hinf : utf8 "inf" = [0x69, 0x6e, 0x66] := by decide
  have hinfinity : utf8 "infinity" = [0x69, 0x6e, 0x66, 0x69, 0x6e, 0x69, 0x74, 0x79] := by decide
  have hnan : utf8 "nan" = [0x6e, 0x61, 0x6e] := by decide
  -- "nan" takes no sign, so it is compared with the whole text
  have hname : (s ++ d :: r).map Bytes.lower ≠ utf8 "nan" := by
    rw [hnan]
    rcases hs with rfl | rfl | rfl
    · simp [hlower, hdn]
    · intro h
      have hhead : some (Bytes.lower 0x2b) = some 0x6e := congrArg List.head? h
      exact absurd hhead (by decide)
    · intro h
      have hhead : some (Bytes.lower 0x2d) = some 0x6e := congrArg List.head? h
      exact absurd hhead (by decide)
  have hother : ¬ ((d :: r).map Bytes.lower = utf8 "inf" ∨
      (d :: r).map Bytes.lower = utf8 "infinity") := by
    simp [hlower, hinf, hinfinity, hdi]
  unfold readNamed?
  rw [hsplit]
  simp only [Bool.or_eq_true, decide_eq_true_eq]
  rw [if_neg hother, if_neg hname]

/-- A text that is no name is read as a sign and a magnitude, unless it has underscores. -/
theorem readDouble?_of_splitSign {s r : Bytes} {negative : Bool} (hnamed : readNamed? s = none)
    (hunderscore : ∀ b ∈ s, b ≠ 0x5f) (hsplit : splitSign s = (negative, r)) :
    readDouble? s = (readMagnitude? r).map (.finite negative) := by
  have hnone : s.any (· == 0x5f) = false := by
    rw [List.any_eq_false]
    intro b hb heq
    exact hunderscore b hb (eq_of_beq heq)
  unfold readDouble?
  rw [hnamed, hsplit, hnone]
  rfl

/-- A sign and digits around a point are a double. -/
theorem readDouble?_isSome {s ds fs : Bytes} (hs : IsSign s) (hne : ds ≠ [])
    (hds : ∀ d ∈ ds, Bytes.isDigit d) (hfs : ∀ d ∈ fs, Bytes.isDigit d)
    (hlength : ds.length + fs.length ≤ 30) : (readDouble? (s ++ (ds ++ 0x2e :: fs))).isSome := by
  have hbytes : ∀ b ∈ ds ++ 0x2e :: fs, Bytes.isDigit b ∨ b = 0x2e :=
    List.forall_mem_append.2 ⟨fun b hb => .inl (hds b hb),
      List.forall_mem_cons.2 ⟨.inr rfl, fun b hb => .inl (hfs b hb)⟩⟩
  have hnone : ∀ l : Bytes, (∀ d ∈ l, Bytes.isDigit d) → l.count 0x2e = 0 := by
    intro l hl
    exact List.count_eq_zero.2 fun h => by cases hl 0x2e h
  have hmagnitude : (readMagnitude? (ds ++ 0x2e :: fs)).isSome := by
    refine readMagnitude?_isSome hbytes ?_ ?_ ?_
    · rw [List.count_append, List.count_cons_self, hnone ds hds, hnone fs hfs]
    · obtain ⟨d, r, rfl⟩ := List.exists_cons_of_ne_nil hne
      simp [hds d List.mem_cons_self]
    · rw [List.filter_append, List.filter_cons_of_neg (by decide), List.length_append]
      have h₁ := List.length_filter_le Bytes.isDigit ds
      have h₂ := List.length_filter_le Bytes.isDigit fs
      omega
  have hunderscore : ∀ b ∈ s ++ (ds ++ 0x2e :: fs), b ≠ 0x5f := by
    refine List.forall_mem_append.2 ⟨?_, ?_⟩
    · rcases hs with rfl | rfl | rfl <;> decide
    · rintro b hb rfl
      rcases hbytes 0x5f hb with h | h <;> cases h
  obtain ⟨d, r, rfl⟩ := List.exists_cons_of_ne_nil hne
  have hd := hds d List.mem_cons_self
  obtain ⟨negative, hsplit⟩ := splitSign_append hs hd (r ++ 0x2e :: fs)
  have hnamed := readNamed?_eq_none hs hd (r ++ 0x2e :: fs)
  rw [List.cons_append] at hmagnitude hunderscore ⊢
  rw [readDouble?_of_splitSign hnamed hunderscore hsplit, Option.isSome_map]
  exact hmagnitude

/-! ## Finite values -/

/-- Not an infinity, and a number. -/
def Value.IsFinite (v : Value) : Prop := ∀ d, v = .double d → d.isFinite

/-- Zero is finite. -/
theorem Value.isFinite_zero (k : Kind) : (Value.zero k).IsFinite := by
  cases k with
  | int =>
      intro d h
      cases h
  | double =>
      intro d h
      cases h
      rfl

/-- A text that is no name of a double is read as a finite one. -/
theorem isFinite_of_readDouble? {s : Bytes} {d : Double} (hname : readNamed? s = none)
    (h : readDouble? s = some d) : d.isFinite := by
  unfold readDouble? at h
  rw [hname] at h
  generalize splitSign s = p at h
  obtain ⟨negative, r⟩ := p
  simp only at h
  split at h
  · cases h
  · obtain ⟨m, -, rfl⟩ := Option.map_eq_some_iff.1 h
    rfl

end LineCalc
