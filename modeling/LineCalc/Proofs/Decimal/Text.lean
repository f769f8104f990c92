import LineCalc.Decimal.Text
import LineCalc.Proofs.Decimal.Shortest
/-!
# Reading what was written

Doubles are written with digits around a point and perhaps an exponent, and reading such a text
undoes the writing: every finite double is read back from its text, sign included.

* `Decimal.IsText` : a text of that form stands for the value of a decimal;
* `Decimal.positional_isText`, `Decimal.scientific_isText` : the two ways of writing are so;
* `Double.readDouble?_toText` : a finite double is read from its text.
-/
namespace LineCalc

/-! ## Exponents -/

/-- Exponent digits are read exactly as long as they are few. -/
theorem readExponent_eq {ds : Bytes} (hds : ∀ d ∈ ds, Bytes.isDigit d)
    (hlt : Bytes.toNat ds < 10 ^ (5 : Nat)) : readExponent ds = Bytes.toNat ds := by
  have hfold : ∀ (ds : Bytes) (n : Nat),
      ds.foldl (fun n b => 10 * n + Bytes.digitValue b) n < 10 ^ (5 : Nat) →
      ds.foldl (fun n b => if n < 10000 then 10 * n + Bytes.digitValue b else n) n =
        ds.foldl (fun n b => 10 * n + Bytes.digitValue b) n := by
    intro ds
    induction ds with
    | nil => exact fun n _ => rfl
    | cons d ds ih =>
        intro n h
        -- what was read so far is at most a tenth of the end
        have hn : n < 10000 := by
          rw [List.foldl_cons, Bytes.foldl_digits] at h
          have hle := Nat.le_mul_of_pos_right (10 * n + Bytes.digitValue d)
            (Nat.pow_pos (n := ds.length) (show 0 < 10 by decide))
          omega
        rw [List.foldl_cons, if_pos hn, List.foldl_cons]
        exact ih _ h
  have hfilter : ds.filter Bytes.isDigit = ds := List.filter_eq_self.2 hds
  rw [readExponent, hfilter]
  exact hfold ds 0 hlt

/-- Nothing, or `E` and an exponent of at most five digits. -/
inductive IsExponent : Bytes → Int → Prop where
  | absent : IsExponent [] 0
  | present {e : Int} (h : e.natAbs < 10 ^ (5 : Nat)) : IsExponent (0x45 :: Bytes.ofInt e) e

/-- The exponent is read. -/
theorem readExponentPart?_ofInt {e : Int} (h : e.natAbs < 10 ^ (5 : Nat)) :
    readExponentPart? 0x65 (0x45 :: Bytes.ofInt e) = some e := by
  obtain ⟨d, r, hdigits, hd⟩ := Bytes.exists_ofNat_eq_cons e.natAbs
  have hall := Bytes.isDigit_of_mem_ofNat e.natAbs
  have hread : readExponent (Bytes.ofNat e.natAbs) = e.natAbs := by
    rw [readExponent_eq hall (by rwa [Bytes.toNat_ofNat]), Bytes.toNat_ofNat]
  rw [readExponentPart?, splitSign_ofInt]
  rw [hdigits] at hall hread ⊢
  have hform : (Bytes.lower 0x45 == 0x65 && Bytes.isDigit d &&
      (d :: r).all fun c => Bytes.isDigit c || c == 0x5f) = true := by
    rw [hd, List.all_eq_true.2 fun b hb => by rw [hall b hb]; rfl]
    rfl
  simp only [hform, if_true, hread, Double.signed_natAbs]

/-- An exponent is no part of a mantissa. -/
theorem IsExponent.takeWhile_eq_nil {tail : Bytes} {e : Int} (h : IsExponent tail e) :
    tail.takeWhile isMantissa = [] ∧ tail.dropWhile isMantissa = tail := by
  cases h with
  | absent => exact ⟨rfl, rfl⟩
  | present h => exact ⟨rfl, rfl⟩

/-- The exponent is read, and is zero if there is none. -/
theorem IsExponent.read {tail : Bytes} {e : Int} (h : IsExponent tail e) :
    (if tail.isEmpty then some 0 else readExponentPart? 0x65 tail) = some e := by
  cases h with
  | absent => rfl
  | present h => exact readExponentPart?_ofInt h

/-! ## Digits around a point -/

/-- **Digits around a point are read as their decimal.** -/
theorem readMagnitude?_point {ds fs tail : Bytes} {e : Int} (hne : ds ≠ [])
    (hds : ∀ d ∈ ds, Bytes.isDigit d) (hfs : ∀ d ∈ fs, Bytes.isDigit d)
    (htail : IsExponent tail e) : readMagnitude? (ds ++ 0x2e :: fs ++ tail) =
      Decimal.toMagnitude? ⟨Bytes.toNat (ds ++ fs), e - fs.length⟩ := by
  obtain ⟨d, r, rfl⟩ := List.exists_cons_of_ne_nil hne
  have hd := hds d List.mem_cons_self
  have hbytes : ∀ b ∈ d :: r ++ 0x2e :: fs, Bytes.isDigit b ∨ b = 0x2e :=
    List.forall_mem_append.2 ⟨fun b hb => .inl (hds b hb),
      List.forall_mem_cons.2 ⟨.inr rfl, fun b hb => .inl (hfs b hb)⟩⟩
  have hmantissa : ∀ b ∈ d :: r ++ 0x2e :: fs, isMantissa b = true := by
    intro b hb
    rcases hbytes b hb with h | h <;> simp [isMantissa, h]
  have hsecond : ∀ b ∈ (d :: r ++ 0x2e :: fs ++ tail)[1]?, Bytes.lower b ≠ 0x78 := by
    intro b hb
    apply lower_ne_x
    apply hbytes b
    rw [List.getElem?_append_left (by simp)] at hb
    exact List.mem_of_getElem? hb
  have hpoint : ∀ l : Bytes, (∀ c ∈ l, Bytes.isDigit c) → l.count 0x2e = 0 := by
    intro l hl
    exact List.count_eq_zero.2 fun h => by cases hl 0x2e h
  have hform : (decide ((d :: r ++ 0x2e :: fs).count 0x2e ≤ 1) &&
      (d :: r ++ 0x2e :: fs).any Bytes.isDigit) = true := by
    rw [List.count_append, List.count_cons_self, hpoint _ hds, hpoint _ hfs]
    simp [hd]
  have hfilter : (d :: r ++ 0x2e :: fs).filter Bytes.isDigit = d :: r ++ fs := by
    rw [List.filter_append, List.filter_eq_self.2 hds, List.filter_cons_of_neg (by decide),
      List.filter_eq_self.2 hfs]
  have hplaces : ((d :: r ++ 0x2e :: fs).dropWhile (· != 0x2e)).filter Bytes.isDigit = fs := by
    have hskip : ∀ b ∈ d :: r, (b != 0x2e) = true := by
      intro b hb
      rw [bne_iff_ne]
      rintro rfl
      cases hds 0x2e hb
    rw [List.dropWhile_append_of_pos hskip, List.dropWhile_cons_of_neg (by decide),
      List.filter_cons_of_neg (by decide), List.filter_eq_self.2 hfs]
  rw [readMagnitude?_eq hsecond]
  simp only [List.takeWhile_append_of_pos hmantissa, List.dropWhile_append_of_pos hmantissa,
    htail.takeWhile_eq_nil, List.append_nil, hplaces]
  rw [if_pos hform, htail.read, Option.bind_some, readDigits_eq_toNat, hfilter]

/-! ## Decimals as text -/

namespace Decimal

/-- A text of digits around a point, perhaps with an exponent, that stands for the decimal. -/
inductive IsText (d : Decimal) : Bytes → Prop where
  | intro {ds fs tail : Bytes} {e : Int} (hne : ds ≠ []) (hds : ∀ b ∈ ds, Bytes.isDigit b)
      (hfs : ∀ b ∈ fs, Bytes.isDigit b) (htail : IsExponent tail e)
      (hvalue : toMagnitude? ⟨Bytes.toNat (ds ++ fs), e - fs.length⟩ = d.toMagnitude?) :
      IsText d (ds ++ 0x2e :: fs ++ tail)

/-- A text that stands for a decimal is read as its magnitude. -/
theorem IsText.read {d : Decimal} {s : Bytes} (h : d.IsText s) :
    readMagnitude? s = d.toMagnitude? := by
  obtain ⟨hne, hds, hfs, htail, hvalue⟩ := h
  rw [readMagnitude?_point hne hds hfs htail, hvalue]

/-- A text that stands for a decimal starts with a digit. -/
theorem IsText.exists_eq_cons {d : Decimal} {s : Bytes} (h : d.IsText s) :
    ∃ b r, s = b :: r ∧ Bytes.isDigit b := by
  obtain @⟨ds, fs, tail, e, hne, hds, -, -, -⟩ := h
  obtain ⟨b, r, rfl⟩ := List.exists_cons_of_ne_nil hne
  exact ⟨b, _, rfl, hds b List.mem_cons_self⟩

/-- A text that stands for a decimal has numeric bytes only. -/
theorem IsText.isNumeric {d : Decimal} {s : Bytes} (h : d.IsText s) :
    ∀ b ∈ s, Bytes.isNumeric b := by
  obtain ⟨-, hds, hfs, htail, -⟩ := h
  refine List.forall_mem_append.2 ⟨List.forall_mem_append.2 ⟨?_, ?_⟩, ?_⟩
  · exact fun b hb => Bytes.isNumeric_of_isDigit (hds b hb)
  · exact List.forall_mem_cons.2 ⟨rfl, fun b hb => Bytes.isNumeric_of_isDigit (hfs b hb)⟩
  · cases htail with
    | absent => exact List.forall_mem_nil _
    | present he => exact List.forall_mem_cons.2 ⟨rfl, Bytes.isNumeric_of_mem_ofInt _⟩

/-- A whole number stands for its decimal. -/
theorem isText_of_nonneg (c : Nat) {e : Int} (he : 0 ≤ e) :
    IsText ⟨c, e⟩ (Bytes.ofNat c ++ List.replicate e.toNat 0x30 ++ utf8 ".0") := by
  have hpoint : utf8 ".0" = 0x2e :: List.replicate 1 0x30 ++ [] := by decide
  obtain ⟨b, r, hne, -⟩ := Bytes.exists_ofNat_eq_cons c
  rw [hpoint, ← List.append_assoc]
  refine .intro (by simp [hne]) ?_ (Bytes.isDigit_of_mem_zeros 1) .absent ?_
  · exact List.forall_mem_append.2 ⟨Bytes.isDigit_of_mem_ofNat c, Bytes.isDigit_of_mem_zeros _⟩
  · have hnumber : Bytes.toNat (Bytes.ofNat c ++ List.replicate e.toNat 0x30 ++
        List.replicate 1 0x30) = c * 10 ^ (e.toNat + 1) := by
      rw [List.append_assoc, List.replicate_append_replicate, Bytes.toNat_append,
        Bytes.toNat_ofNat, Bytes.toNat_zeros, List.length_replicate, Nat.add_zero]
    have hexponent : 0 - ((List.replicate 1 (0x30 : UInt8)).length : Int) =
        e - (e.toNat + 1 : Nat) := by
      rw [List.length_replicate]
      omega
    rw [hnumber, hexponent, toMagnitude?_mul_pow]

/-- Digits on both sides of the point stand for their decimal. -/
theorem isText_of_lt (c : Nat) {e : Int} (he : e < 0) (hlt : (-e).toNat < (Bytes.ofNat c).length) :
    IsText ⟨c, e⟩ ((Bytes.ofNat c).take ((Bytes.ofNat c).length - (-e).toNat) ++ utf8 "." ++
      (Bytes.ofNat c).drop ((Bytes.ofNat c).length - (-e).toNat)) := by
  have hdigits := Bytes.isDigit_of_mem_ofNat c
  have hpoint : utf8 "." = [0x2e] := by decide
  generalize hk : (Bytes.ofNat c).length - (-e).toNat = k
  have htext : (Bytes.ofNat c).take k ++ utf8 "." ++ (Bytes.ofNat c).drop k =
      (Bytes.ofNat c).take k ++ 0x2e :: (Bytes.ofNat c).drop k ++ [] := by
    rw [hpoint, List.append_nil, List.append_assoc, List.singleton_append]
  rw [htext]
  refine .intro ?_ (fun b hb => hdigits b (List.mem_of_mem_take hb))
    (fun b hb => hdigits b (List.mem_of_mem_drop hb)) .absent ?_
  · apply List.ne_nil_of_length_pos
    rw [List.length_take]
    omega
  · have hexponent : 0 - (((Bytes.ofNat c).drop k).length : Int) = e := by
      rw [List.length_drop]
      omega
    rw [List.take_append_drop, Bytes.toNat_ofNat, hexponent]

/-- Digits behind the point stand for their decimal. -/
theorem isText_of_le (c : Nat) {e : Int} (he : e < 0) (hle : (Bytes.ofNat c).length ≤ (-e).toNat) :
    IsText ⟨c, e⟩ (utf8 "0." ++ List.replicate ((-e).toNat - (Bytes.ofNat c).length) 0x30 ++
      Bytes.ofNat c) := by
  have hdigits := Bytes.isDigit_of_mem_ofNat c
  have hpoint : utf8 "0." = [0x30, 0x2e] := by decide
  generalize hk : (-e).toNat - (Bytes.ofNat c).length = k
  have htext : utf8 "0." ++ List.replicate k 0x30 ++ Bytes.ofNat c =
      List.replicate 1 0x30 ++ 0x2e :: (List.replicate k 0x30 ++ Bytes.ofNat c) ++ [] := by
    simp [hpoint]
  rw [htext]
  refine .intro (by simp) (Bytes.isDigit_of_mem_zeros 1) ?_ .absent ?_
  · exact List.forall_mem_append.2 ⟨Bytes.isDigit_of_mem_zeros k, hdigits⟩
  · have hnumber : Bytes.toNat (List.replicate 1 0x30 ++ (List.replicate k 0x30 ++ Bytes.ofNat c)) =
        c := by
      rw [Bytes.toNat_append, Bytes.toNat_append, Bytes.toNat_zeros, Bytes.toNat_zeros,
        Bytes.toNat_ofNat, Nat.zero_mul, Nat.zero_mul, Nat.zero_add, Nat.zero_add]
    have hexponent : 0 - ((List.replicate k (0x30 : UInt8) ++ Bytes.ofNat c).length : Int) = e := by
      rw [List.length_append, List.length_replicate]
      omega
    rw [hnumber, hexponent]

/-- **Positional texts stand for their decimals.** -/
theorem positional_isText (d : Decimal) : d.IsText d.positional := by
  obtain ⟨c, e⟩ := d
  unfold positional
  extract_lets ds places
  split
  · next he => exact isText_of_nonneg c he
  · next he =>
      split
      · next hlt => exact isText_of_lt c (Int.not_le.1 he) hlt
      · next hle => exact isText_of_le c (Int.not_le.1 he) (Nat.not_lt.1 hle)

/-- **Scientific texts stand for their decimals**, if the exponent has at most five digits. -/
theorem scientific_isText {d : Decimal} (h : d.order.natAbs < 10 ^ (5 : Nat)) :
    d.IsText d.scientific := by
  obtain ⟨c, e⟩ := d
  obtain ⟨b, r, hdigits, hb⟩ := Bytes.exists_ofNat_eq_cons c
  have hall := Bytes.isDigit_of_mem_ofNat c
  have hnumber := Bytes.toNat_ofNat c
  have hlength := Bytes.length_ofNat c
  have hpoint : utf8 "." = [0x2e] := by decide
  have hmark : utf8 "E" = [0x45] := by decide
  have hzero : utf8 "0" = [0x30] := by decide
  unfold scientific
  extract_lets ds fraction
  have horder : e + ds.length - 1 = order ⟨c, e⟩ := by
    rw [order, ← hlength]
  have htext : ds.take 1 ++ utf8 "." ++ fraction ++ utf8 "E" ++ Bytes.ofInt (e + ds.length - 1) =
      [b] ++ 0x2e :: fraction ++ (0x45 :: Bytes.ofInt (order ⟨c, e⟩)) := by
    rw [horder, hpoint, hmark]
    simp [ds, hdigits]
  rw [hdigits] at hall hnumber
  rw [htext]
  refine .intro (by simp) (List.forall_mem_singleton.2 hb) ?_ (.present h) ?_
  · simp only [fraction]
    split
    · rw [hzero]
      exact Bytes.isDigit_of_mem_zeros 1
    · exact fun b' hb' => hall b' (by simpa [ds, hdigits] using List.mem_cons_of_mem b hb')
  · simp only [fraction]
    split
    · next hone =>
        have hr : r = [] := by simpa [ds, hdigits] using hone
        have hshift : Bytes.toNat ([b] ++ utf8 "0") = c * 10 ^ (1 : Nat) := by
          rw [hr] at hnumber
          rw [hzero, Bytes.toNat_append, hnumber]
          rfl
        have hexponent : order ⟨c, e⟩ - ((utf8 "0").length : Int) = e - (1 : Nat) := by
          rw [← horder, hone, hzero, List.length_singleton]
          omega
        rw [hshift, hexponent, toMagnitude?_mul_pow]
    · have hrest : ds.drop 1 = r := by simp [ds, hdigits]
      have hexponent : order ⟨c, e⟩ - (r.length : Int) = e := by
        rw [← horder]
        simp only [ds, hdigits, List.length_cons]
        omega
      rw [hrest, hexponent, List.singleton_append, hnumber]

end Decimal

/-! ## Doubles as text -/

/-- Zero is written with a zero on both sides of the point. -/
theorem Decimal.isText_zero : IsText ⟨0, 0⟩ (utf8 "0.0") := by
  have htext : utf8 "0.0" = List.replicate 1 0x30 ++ 0x2e :: List.replicate 1 0x30 ++ [] := by
    decide
  rw [htext]
  refine .intro (by simp) (Bytes.isDigit_of_mem_zeros 1) (Bytes.isDigit_of_mem_zeros 1) .absent ?_
  rw [List.replicate_append_replicate, Bytes.toNat_zeros, ← toMagnitude?_mul_pow 0 0 1]
  rfl

/-- Zero is zero. -/
theorem Decimal.toMagnitude?_zero : toMagnitude? ⟨0, 0⟩ = some .zero := by
  unfold toMagnitude?
  rw [quotient_eq, Nat.zero_mul, Nat.zero_mul]
  exact Magnitude.round_units .zero

/-- The text of a magnitude stands for a decimal that is read as it. -/
theorem Magnitude.exists_isText_toText (m : Magnitude) :
    ∃ d : Decimal, d.IsText m.toText ∧ d.toMagnitude? = some m := by
  unfold toText
  split
  · next hzero =>
      rw [units_eq_zero_iff.1 hzero]
      exact ⟨_, Decimal.isText_zero, Decimal.toMagnitude?_zero⟩
  · split
    · exact ⟨_, Decimal.positional_isText _, Decimal.toMagnitude?_shortest m⟩
    · exact ⟨_, Decimal.scientific_isText (Decimal.natAbs_order_shortest_lt m),
        Decimal.toMagnitude?_shortest m⟩

namespace Double

/-- A sign is a sign. -/
theorem isSign_sign (negative : Bool) : IsSign (sign negative) := by
  cases negative with
  | false => exact .inl rfl
  | true => exact .inr (.inr (by decide))

/-- The sign in front of digits is split off. -/
theorem splitSign_sign (negative : Bool) {d : UInt8} (hd : Bytes.isDigit d) (r : Bytes) :
    splitSign (sign negative ++ d :: r) = (negative, d :: r) := by
  cases negative with
  | false => exact splitSign_cons hd r
  | true => rfl

/-- Finite doubles are written with numeric bytes only. -/
theorem isNumeric_of_mem_toText {x : Double} (h : x.isFinite) :
    ∀ b ∈ x.toText, Bytes.isNumeric b := by
  obtain ⟨s, m, rfl⟩ := isFinite_iff.1 h
  obtain ⟨d, htext, -⟩ := m.exists_isText_toText
  refine List.forall_mem_append.2 ⟨?_, htext.isNumeric⟩
  cases s with
  | false => exact List.forall_mem_nil _
  | true => exact List.forall_mem_singleton.2 rfl

/-- **A finite double is read back from its text**, with its sign. -/
theorem readDouble?_toText {x : Double} (h : x.isFinite) : readDouble? x.toText = some x := by
  have hunderscore : ∀ b ∈ x.toText, b ≠ 0x5f := by
    rintro b hb rfl
    cases isNumeric_of_mem_toText h _ hb
  obtain ⟨s, m, rfl⟩ := isFinite_iff.1 h
  obtain ⟨d, htext, hm⟩ := m.exists_isText_toText
  have hread := htext.read
  obtain ⟨b, r, hcons, hb⟩ := htext.exists_eq_cons
  rw [toText] at hunderscore ⊢
  rw [hcons] at hunderscore hread ⊢
  rw [readDouble?_of_splitSign (readNamed?_eq_none (isSign_sign s) hb r) hunderscore
    (splitSign_sign s hb r), hread, hm, Option.map_some]

end Double

end LineCalc
