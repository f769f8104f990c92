import LineCalc.Text.Utf8
import Mathlib.Data.List.Basic
/-!
# Texts as characters

A text is made of its units, and a character is told by its bytes.

* `Text.flatMap_bytes_glyphs` : the bytes of the units of a text are that text;
* `Text.Glyph.IsProper` : a byte that stands alone is not ASCII;
* `Text.encode_append_inj` : a character is told by its bytes, whatever stands behind them;
* `Text.toNat_of_mem_encode` : an ASCII byte is part of its own character only.
-/
namespace LineCalc.Text

/-! ## Numbers of characters -/

/-- The character of a scalar value has that number. -/
theorem toNat_ofNat {n : Nat} (h : n.isValidChar) : (Char.ofNat n).toNat = n := by
  rw [Char.ofNat, dif_pos h]
  rfl

/-- A scalar value is the number of its character. -/
theorem of_scalar? {least n : Nat} {c : Char} (h : scalar? least n = some c) :
    least ≤ n ∧ c.toNat = n := by
  rw [scalar?] at h
  split at h
  · next hn =>
      cases h
      exact ⟨hn.1, toNat_ofNat hn.2⟩
  · cases h

/-- The range of the continuation bytes. -/
theorem isTail_iff (b : UInt8) : isTail b ↔ 0x80 ≤ b.toNat ∧ b.toNat ≤ 0xbf := by
  simp only [isTail, Bool.and_eq_true, decide_eq_true_eq, UInt8.le_iff_toNat_le, UInt8.reduceToNat]

/-- The range of a first byte, by numbers. -/
theorem lead_iff {least bound b : UInt8} : (decide (least ≤ b) && decide (b < bound)) ↔
    least.toNat ≤ b.toNat ∧ b.toNat < bound.toNat := by
  simp only [Bool.and_eq_true, decide_eq_true_eq, UInt8.le_iff_toNat_le, UInt8.lt_iff_toNat_lt]

/-- What a continuation byte adds to a number. -/
theorem tailBits_eq (b : UInt8) : tailBits b = b.toNat - 0x80 := rfl

/-! ## The bytes of a character by its number -/

/-- A character of one byte. -/
theorem encode_one {c : Char} {b : UInt8} (hb : b.toNat < 0x80) (h : c.toNat = b.toNat) :
    String.utf8EncodeChar c = [b] := by
  have hval : c.val.toNat = b.toNat := h
  rw [String.utf8EncodeChar, hval, if_pos (by omega), UInt8.ofNat_toNat]

/-- A character of two bytes. -/
theorem encode_two {c : Char} {b d : UInt8} (hb : 0xc0 ≤ b.toNat) (hb' : b.toNat < 0xe0)
    (hd : isTail d) (hleast : 0x80 ≤ c.toNat)
    (h : c.toNat = (b.toNat - 0xc0) * 64 + tailBits d) : String.utf8EncodeChar c = [b, d] := by
  have hval : c.val.toNat = c.toNat := rfl
  rw [isTail_iff] at hd
  rw [tailBits_eq] at h
  have hb₀ : c.toNat / 64 % 32 + 192 = b.toNat := by omega
  have hd₀ : c.toNat % 64 + 128 = d.toNat := by omega
  rw [String.utf8EncodeChar, hval, if_neg (by omega), if_pos (by omega), hb₀, hd₀,
    UInt8.ofNat_toNat, UInt8.ofNat_toNat]

/-- A character of three bytes. -/
theorem encode_three {c : Char} {b d e : UInt8} (hb : 0xe0 ≤ b.toNat) (hb' : b.toNat < 0xf0)
    (hd : isTail d) (he : isTail e) (hleast : 0x800 ≤ c.toNat)
    (h : c.toNat = ((b.toNat - 0xe0) * 64 + tailBits d) * 64 + tailBits e) :
    String.utf8EncodeChar c = [b, d, e] := by
  have hval : c.val.toNat = c.toNat := rfl
  rw [isTail_iff] at hd he
  rw [tailBits_eq, tailBits_eq] at h
  have hb₀ : c.toNat / 4096 % 16 + 224 = b.toNat := by omega
  have hd₀ : c.toNat / 64 % 64 + 128 = d.toNat := by omega
  have he₀ : c.toNat % 64 + 128 = e.toNat := by omega
  rw [String.utf8EncodeChar, hval, if_neg (by omega), if_neg (by omega), if_pos (by omega), hb₀,
    hd₀, he₀, UInt8.ofNat_toNat, UInt8.ofNat_toNat, UInt8.ofNat_toNat]

/-- A character of four bytes. -/
theorem encode_four {c : Char} {b d e f : UInt8} (hb : 0xf0 ≤ b.toNat) (hb' : b.toNat < 0xf8)
    (hd : isTail d) (he : isTail e) (hf : isTail f) (hleast : 0x10000 ≤ c.toNat)
    (h : c.toNat = (((b.toNat - 0xf0) * 64 + tailBits d) * 64 + tailBits e) * 64 + tailBits f) :
    String.utf8EncodeChar c = [b, d, e, f] := by
  have hval : c.val.toNat = c.toNat := rfl
  rw [isTail_iff] at hd he hf
  rw [tailBits_eq, tailBits_eq, tailBits_eq] at h
  have hb₀ : c.toNat / 262144 % 8 + 240 = b.toNat := by omega
  have hd₀ : c.toNat / 4096 % 64 + 128 = d.toNat := by omega
  have he₀ : c.toNat / 64 % 64 + 128 = e.toNat := by omega
  have hf₀ : c.toNat % 64 + 128 = f.toNat := by omega
  rw [String.utf8EncodeChar, hval, if_neg (by omega), if_neg (by omega), if_neg (by omega), hb₀,
    hd₀, he₀, hf₀, UInt8.ofNat_toNat, UInt8.ofNat_toNat, UInt8.ofNat_toNat, UInt8.ofNat_toNat]

/-! ## Texts and their units -/

/-- The first unit of a text and the bytes after it are the text. -/
theorem nextGlyph_append (b : UInt8) (r : Bytes) :
    (nextGlyph b r).1.bytes ++ (nextGlyph b r).2 = b :: r := by
  unfold nextGlyph
  split
  · next hb =>
      have hb : b.toNat < 0x80 := UInt8.lt_iff_toNat_lt.1 hb
      have hc := toNat_ofNat (.inl (Nat.lt_trans hb (by decide)))
      exact congrArg (· ++ r) (encode_one hb hc)
  split
  · next hb =>
      obtain ⟨hb, hb'⟩ := lead_iff.1 hb
      split
      · next d r' =>
          split
          · next c hc =>
              obtain ⟨hd, hc⟩ := Option.ite_none_right_eq_some.1 hc
              obtain ⟨hleast, hc⟩ := of_scalar? hc
              exact congrArg (· ++ r') (encode_two hb hb' hd (by omega) hc)
          · rfl
      · rfl
  split
  · next hb =>
      obtain ⟨hb, hb'⟩ := lead_iff.1 hb
      split
      · next d e r' =>
          split
          · next c hc =>
              obtain ⟨htail, hc⟩ := Option.ite_none_right_eq_some.1 hc
              obtain ⟨hleast, hc⟩ := of_scalar? hc
              simp only [Bool.and_eq_true] at htail
              exact congrArg (· ++ r') (encode_three hb hb' htail.1 htail.2 (by omega) hc)
          · rfl
      · rfl
  split
  · next hb =>
      obtain ⟨hb, hb'⟩ := lead_iff.1 hb
      split
      · next d e f r' =>
          split
          · next c hc =>
              obtain ⟨htail, hc⟩ := Option.ite_none_right_eq_some.1 hc
              obtain ⟨hleast, hc⟩ := of_scalar? hc
              simp only [Bool.and_eq_true] at htail
              obtain ⟨⟨hd, he⟩, hf⟩ := htail
              exact congrArg (· ++ r') (encode_four hb hb' hd he hf (by omega) hc)
          · rfl
      · rfl
  · rfl

/-- **A text is made of its units.** -/
theorem flatMap_bytes_glyphs (s : Bytes) : (glyphs s).flatMap Glyph.bytes = s := by
  fun_induction glyphs s with
  | case1 => rfl
  | case2 b r ih => rw [List.flatMap_cons, ih, nextGlyph_append]

/-- Texts with the same units are the same. -/
theorem glyphs_injective : Function.Injective glyphs := by
  intro s s' h
  rw [← flatMap_bytes_glyphs s, h, flatMap_bytes_glyphs]

/-- A byte that is part of no character is not ASCII. -/
def Glyph.IsProper : Glyph → Prop
  | .char _ => True
  | .stray b => 0x80 ≤ b.toNat

/-- The first unit of a text is proper. -/
theorem isProper_nextGlyph (b : UInt8) (r : Bytes) : (nextGlyph b r).1.IsProper := by
  unfold nextGlyph
  split
  · trivial
  · next hb =>
      have hb : 0x80 ≤ b.toNat := Nat.le_of_not_lt fun h => hb (UInt8.lt_iff_toNat_lt.2 h)
      repeat' split
      all_goals first | exact trivial | exact hb

/-- The units of a text are proper. -/
theorem isProper_of_mem_glyphs (s : Bytes) : ∀ g ∈ glyphs s, g.IsProper := by
  fun_induction glyphs s with
  | case1 => exact List.forall_mem_nil _
  | case2 b r ih => exact List.forall_mem_cons.2 ⟨isProper_nextGlyph b r, ih⟩

/-! ## Characters and their bytes -/

/-- A character is told by its bytes, whatever stands behind them. -/
theorem encode_append_inj {c c' : Char} {r r' : Bytes}
    (h : String.utf8EncodeChar c ++ r = String.utf8EncodeChar c' ++ r') : c = c' := by
  have hdecode : ∀ (c : Char) (r : Bytes),
      (String.utf8EncodeChar c ++ r).toByteArray.utf8DecodeChar? 0 = some c := by
    intro c r
    rw [List.toByteArray_append, ByteArray.utf8DecodeChar?_utf8EncodeChar_append]
  have hc := hdecode c r
  rw [h, hdecode] at hc
  exact (Option.some.inj hc).symm

/-- An ASCII byte is part of its own character only. -/
theorem toNat_of_mem_encode {c : Char} {b : UInt8} (hb : b < 0x80)
    (h : b ∈ String.utf8EncodeChar c) : c.toNat = b.toNat := by
  have hval : c.val.toNat = c.toNat := rfl
  have hlt : b.toNat < 128 := UInt8.lt_iff_toNat_lt.1 hb
  simp only [String.utf8EncodeChar, hval] at h
  split_ifs at h
  all_goals
    simp only [List.mem_cons, List.not_mem_nil, or_false, eq_comm (a := b),
      UInt8.ofNat_eq_iff_mod_eq_toNat] at h
    omega

end LineCalc.Text
