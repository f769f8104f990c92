import LineCalc.Proofs.Text.Blank
/-!
# White space of Unicode

In a text of characters, squeezing deletes the white-space characters and keeps the others as they
are.

* `Text.squeeze_encode_append` : squeezing takes a character whole, or leaves it whole;
* `Text.squeeze_utf8` : squeezing the bytes of a text deletes its white-space characters;
* `Text.squeeze_eq_fields` : what is left is the fields that white space separates, joined.
-/
namespace LineCalc.Text

/-! ## White-space characters -/

/-- The white-space characters of Unicode. -/
def isWhite (c : Char) : Bool :=
  (0x09 ≤ c.toNat && c.toNat ≤ 0x0d) || c.toNat == 0x20 || c.toNat == 0x85 || c.toNat == 0xa0 ||
  c.toNat == 0x1680 || (0x2000 ≤ c.toNat && c.toNat ≤ 0x200a) || c.toNat == 0x2028 ||
  c.toNat == 0x2029 || c.toNat == 0x202f || c.toNat == 0x205f || c.toNat == 0x3000

/-- The text without its white-space characters. -/
def withoutWhite (s : String) : String := String.ofList (s.toList.filter (!isWhite ·))

/-- The bytes of a text are those of its characters. -/
theorem utf8_eq_flatMap (s : String) : utf8 s = s.toList.flatMap String.utf8EncodeChar := by
  rw [utf8, ← String.utf8Encode_toList, List.utf8Encode, List.data_toByteArray]

/-- The bytes of two texts in a row. -/
theorem utf8_append (s s' : String) : utf8 (s ++ s') = utf8 s ++ utf8 s' := by
  rw [utf8_eq_flatMap, utf8_eq_flatMap, utf8_eq_flatMap, String.toList_append, List.flatMap_append]

/-! ## Squeezing bytes -/

/-- Two bytes go if they are white space; else they stay, if the second one is plain. -/
theorem squeeze_pair {a b : UInt8} (r : Bytes) (ha : isAsciiBlank a = false) (hb : isPlain b)
    (hwide : ∀ c, isWideBlank a b c = false) :
    squeeze (a :: b :: r) = if isPairBlank a b then squeeze r else a :: b :: squeeze r := by
  have hplain := squeeze_cons_of_isPlain r hb
  rw [squeeze.eq_def]
  simp only [ha]
  cases r with
  | nil => simp [hplain, squeeze]
  | cons c r => simp [hwide, hplain]

/-- Three bytes go if they are white space; else they stay, if the others are plain. -/
theorem squeeze_triple {a b c : UInt8} (r : Bytes) (ha : isAsciiBlank a = false)
    (hpair : isPairBlank a b = false) (hb : isPlain b) (hc : isPlain c) :
    squeeze (a :: b :: c :: r) =
      if isWideBlank a b c then squeeze r else a :: b :: c :: squeeze r := by
  rw [squeeze.eq_def]
  simp only [ha, hpair]
  simp [squeeze_cons_of_isPlain _ hb, squeeze_cons_of_isPlain _ hc]

/-! ## Squeezing characters -/

/-- The numbers of the white-space characters. -/
theorem isWhite_iff (c : Char) :
    isWhite c ↔ (0x09 ≤ c.toNat ∧ c.toNat ≤ 0x0d) ∨ c.toNat = 0x20 ∨ c.toNat = 0x85 ∨
      c.toNat = 0xa0 ∨ c.toNat = 0x1680 ∨ (0x2000 ≤ c.toNat ∧ c.toNat ≤ 0x200a) ∨
      c.toNat = 0x2028 ∨ c.toNat = 0x2029 ∨ c.toNat = 0x202f ∨ c.toNat = 0x205f ∨
      c.toNat = 0x3000 := by
  simp only [isWhite, Bool.or_eq_true, Bool.and_eq_true, decide_eq_true_eq, beq_iff_eq, or_assoc]

/-- A byte above the blank ones that leads no white space is plain. -/
theorem isPlain_ofNat {n : Nat} (h : n < 256) (hblank : 0x20 < n)
    (hlead : n ≠ 0xc2 ∧ n ≠ 0xe1 ∧ n ≠ 0xe2 ∧ n ≠ 0xe3) : isPlain (UInt8.ofNat n) := by
  simp only [isPlain, isAsciiBlank, Bool.and_eq_true, Bool.not_eq_true', bne_iff_ne, ne_eq,
    Bool.or_eq_false_iff, Bool.and_eq_false_iff, beq_eq_false_iff_ne, decide_eq_false_iff_not,
    UInt8.le_iff_toNat_le, UInt8.ofNat_eq_iff_mod_eq_toNat, UInt8.toNat_ofNat',
    UInt8.reduceToNat]
  omega

/-- The bytes of a character behind its first one are plain. -/
theorem isPlain_tail (n : Nat) : isPlain (UInt8.ofNat (n % 64 + 128)) :=
  isPlain_ofNat (by omega) (by omega) (by omega)

/-- A byte above the blank ones is not blank. -/
theorem isAsciiBlank_ofNat {n : Nat} (h : n < 256) (hblank : 0x20 < n) :
    isAsciiBlank (UInt8.ofNat n) = false := by
  simp only [isAsciiBlank, Bool.or_eq_false_iff, Bool.and_eq_false_iff, beq_eq_false_iff_ne, ne_eq,
    decide_eq_false_iff_not, UInt8.le_iff_toNat_le, UInt8.ofNat_eq_iff_mod_eq_toNat,
    UInt8.toNat_ofNat', UInt8.reduceToNat]
  omega

/-- Squeezing a character of one byte. -/
theorem squeeze_encode_one {c : Char} (h : c.toNat ≤ 0x7f) (r : Bytes) :
    squeeze (UInt8.ofNat c.toNat :: r) =
      if isWhite c then squeeze r else UInt8.ofNat c.toNat :: squeeze r := by
  have hblank : isAsciiBlank (UInt8.ofNat c.toNat) = isWhite c := by
    rw [Bool.eq_iff_iff, isWhite_iff]
    simp only [isAsciiBlank, Bool.or_eq_true, Bool.and_eq_true, decide_eq_true_eq, beq_iff_eq,
      UInt8.le_iff_toNat_le, UInt8.ofNat_eq_iff_mod_eq_toNat, UInt8.toNat_ofNat',
      UInt8.reduceToNat]
    omega
  have hascii : isAscii (UInt8.ofNat c.toNat) := by
    simp only [isAscii, decide_eq_true_eq, UInt8.lt_iff_toNat_lt, UInt8.toNat_ofNat',
      UInt8.reduceToNat]
    omega
  rw [← hblank]
  split
  · next h => exact squeeze_cons_of_isAsciiBlank r h
  · next h => exact squeeze_cons_of_isAscii r hascii (by simpa using h)

/-- Squeezing a character of two bytes. -/
theorem squeeze_encode_two {c : Char} (h : 0x7f < c.toNat) (h' : c.toNat ≤ 0x7ff) (r : Bytes) :
    squeeze (UInt8.ofNat (c.toNat / 64 % 32 + 192) :: UInt8.ofNat (c.toNat % 64 + 128) :: r) =
      if isWhite c then squeeze r
      else UInt8.ofNat (c.toNat / 64 % 32 + 192) :: UInt8.ofNat (c.toNat % 64 + 128) ::
        squeeze r := by
  have hpair : isPairBlank (UInt8.ofNat (c.toNat / 64 % 32 + 192))
      (UInt8.ofNat (c.toNat % 64 + 128)) = isWhite c := by
    rw [Bool.eq_iff_iff, isWhite_iff]
    simp only [isPairBlank, Bool.and_eq_true, Bool.or_eq_true, beq_iff_eq,
      UInt8.ofNat_eq_iff_mod_eq_toNat, UInt8.reduceToNat]
    omega
  have hwide : ∀ b, isWideBlank (UInt8.ofNat (c.toNat / 64 % 32 + 192))
      (UInt8.ofNat (c.toNat % 64 + 128)) b = false := by
    intro b
    rw [Bool.eq_false_iff]
    simp only [isWideBlank, ne_eq, Bool.and_eq_true, Bool.or_eq_true, beq_iff_eq,
      UInt8.ofNat_eq_iff_mod_eq_toNat, UInt8.reduceToNat]
    omega
  rw [squeeze_pair r (isAsciiBlank_ofNat (by omega) (by omega)) (isPlain_tail _) hwide, hpair]

/-- The white space of three bytes, by the digits of its number. -/
theorem isWideBlank_ofNat {high middle low : Nat} (hhigh : high < 16) (hmiddle : middle < 64)
    (hlow : low < 64) :
    isWideBlank (UInt8.ofNat (high + 224)) (UInt8.ofNat (middle + 128))
        (UInt8.ofNat (low + 128)) ↔
      (high = 1 ∧ middle = 26 ∧ low = 0) ∨
      (high = 2 ∧ middle = 0 ∧ (low ≤ 10 ∨ low = 40 ∨ low = 41 ∨ low = 47)) ∨
      (high = 2 ∧ middle = 1 ∧ low = 31) ∨ (high = 3 ∧ middle = 0 ∧ low = 0) := by
  have hsmall (n : Nat) (hn : n < 256) : n % 2 ^ 8 = n := Nat.mod_eq_of_lt hn
  simp only [isWideBlank, Bool.and_eq_true, Bool.or_eq_true, beq_iff_eq, decide_eq_true_eq,
    UInt8.le_iff_toNat_le, UInt8.ofNat_eq_iff_mod_eq_toNat, UInt8.toNat_ofNat',
    UInt8.reduceToNat, hsmall (high + 224) (by omega), hsmall (middle + 128) (by omega),
    hsmall (low + 128) (by omega), Nat.reduceEqDiff, Nat.reduceLeDiff, Nat.le_add_left, true_and,
    and_assoc, or_assoc]

/-- Squeezing a character of three bytes. -/
theorem squeeze_encode_three {c : Char} (h : 0x7ff < c.toNat) (h' : c.toNat ≤ 0xffff) (r : Bytes) :
    squeeze (UInt8.ofNat (c.toNat / 4096 % 16 + 224) :: UInt8.ofNat (c.toNat / 64 % 64 + 128) ::
        UInt8.ofNat (c.toNat % 64 + 128) :: r) =
      if isWhite c then squeeze r
      else UInt8.ofNat (c.toNat / 4096 % 16 + 224) :: UInt8.ofNat (c.toNat / 64 % 64 + 128) ::
        UInt8.ofNat (c.toNat % 64 + 128) :: squeeze r := by
  have hpair : isPairBlank (UInt8.ofNat (c.toNat / 4096 % 16 + 224))
      (UInt8.ofNat (c.toNat / 64 % 64 + 128)) = false := by
    rw [Bool.eq_false_iff]
    simp only [isPairBlank, ne_eq, Bool.and_eq_true, Bool.or_eq_true, beq_iff_eq,
      UInt8.ofNat_eq_iff_mod_eq_toNat, UInt8.reduceToNat]
    omega
  have hwide : isWideBlank (UInt8.ofNat (c.toNat / 4096 % 16 + 224))
      (UInt8.ofNat (c.toNat / 64 % 64 + 128)) (UInt8.ofNat (c.toNat % 64 + 128)) = isWhite c := by
    -- the number of the character is that of its three digits
    have hnumber : c.toNat = 4096 * (c.toNat / 4096 % 16) + 64 * (c.toNat / 64 % 64) +
        c.toNat % 64 := by omega
    have hhigh : c.toNat / 4096 % 16 < 16 := Nat.mod_lt _ (by decide)
    have hmiddle : c.toNat / 64 % 64 < 64 := Nat.mod_lt _ (by decide)
    have hlow : c.toNat % 64 < 64 := Nat.mod_lt _ (by decide)
    rw [Bool.eq_iff_iff, isWhite_iff, isWideBlank_ofNat hhigh hmiddle hlow]
    generalize c.toNat / 4096 % 16 = high at *
    generalize c.toNat / 64 % 64 = middle at *
    generalize c.toNat % 64 = low at *
    omega
  rw [squeeze_triple r (isAsciiBlank_ofNat (by omega) (by omega)) hpair (isPlain_tail _)
    (isPlain_tail _), hwide]

/-- **A character is squeezed whole.**  At the front of a text it goes if it is white space, and
stays as it is if not. -/
theorem squeeze_encode_append (c : Char) (r : Bytes) :
    squeeze (String.utf8EncodeChar c ++ r) =
      if isWhite c then squeeze r else String.utf8EncodeChar c ++ squeeze r := by
  have hval : c.val.toNat = c.toNat := rfl
  simp only [String.utf8EncodeChar, hval]
  split
  · next hone => exact squeeze_encode_one hone r
  · next hone =>
      split
      · next htwo => exact squeeze_encode_two (Nat.lt_of_not_le hone) htwo r
      · next htwo =>
          split
          · next hthree => exact squeeze_encode_three (Nat.lt_of_not_le htwo) hthree r
          · next hthree =>
              have hwhite : isWhite c = false := by
                rw [Bool.eq_false_iff, ne_eq, isWhite_iff]
                omega
              have hlead : isPlain (UInt8.ofNat (c.toNat / 262144 % 8 + 240)) :=
                isPlain_ofNat (by omega) (by omega) (by omega)
              simp only [List.cons_append, List.nil_append, hwhite, squeeze_cons_of_isPlain _ hlead,
                squeeze_cons_of_isPlain _ (isPlain_tail _)]
              rfl

/-- **Squeezing deletes white space.**  Of the bytes of a text those of its white-space characters
go, and all others stay. -/
theorem squeeze_utf8 (s : String) : squeeze (utf8 s) = utf8 (withoutWhite s) := by
  rw [utf8_eq_flatMap, utf8_eq_flatMap, withoutWhite, String.toList_ofList]
  induction s.toList with
  | nil => rw [List.flatMap_nil, squeeze]; rfl
  | cons c cs ih =>
      rw [List.flatMap_cons, squeeze_encode_append, ih]
      cases hwhite : isWhite c with
      | true => simp [hwhite]
      | false => simp [hwhite]

/-! ## Fields -/

/-- The fields of a text: what white space separates, without the empty ones. -/
def fields (s : String) : List String :=
  ((s.toList.splitOnP isWhite).filter (!·.isEmpty)).map String.ofList

/-- What separators separate is, joined, what is left without them. -/
theorem flatten_splitOnP (p : Char → Bool) (cs : List Char) :
    (cs.splitOnP p).flatten = cs.filter (!p ·) := by
  induction cs with
  | nil => rw [List.splitOnP_nil]; rfl
  | cons c cs ih =>
      rw [List.splitOnP_cons_eq_if_modifyHead]
      cases hc : p c with
      | true => simp [hc, ih]
      | false =>
          obtain ⟨w, ws, hsplit⟩ := List.exists_cons_of_ne_nil (List.splitOnP_ne_nil p cs)
          rw [hsplit] at ih
          simpa [hc, hsplit] using ih

/-- **Squeezing joins fields.**  What is left of a text is its fields, one right behind the
other. -/
theorem squeeze_eq_fields (s : String) : squeeze (utf8 s) = (fields s).flatMap utf8 := by
  have hutf8 (cs : List Char) : utf8 (String.ofList cs) = cs.flatMap String.utf8EncodeChar := by
    rw [utf8_eq_flatMap, String.toList_ofList]
  rw [squeeze_utf8, withoutWhite, hutf8, ← flatten_splitOnP, ← List.flatten_filter_not_isEmpty,
    fields, List.flatMap_map, List.flatten_eq_flatMap, List.flatMap_assoc]
  simp only [hutf8, id_eq]

end LineCalc.Text
