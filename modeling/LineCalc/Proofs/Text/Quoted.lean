import LineCalc.Proofs.Text.Parts
import LineCalc.Proofs.Text.Utf8
import LineCalc.Text.Quoted
/-!
# Quoted texts

A quoted text is of no other text, and has no line breaks.

* `Bytes.hex_inj` : a number is told by its hexadecimal digits, if there are enough of them;
* `Text.Quotes` : the ways a unit is shown inside quotes;
* `Text.quote_injective` : a text is told by its quoted form.
-/
namespace LineCalc

/-! ## Hexadecimal digits -/

namespace Bytes

/-- A number has as many hexadecimal digits as asked for. -/
theorem length_hex (w n : Nat) : (hex w n).length = w := by
  induction w generalizing n with
  | zero => rfl
  | succ w ih => rw [hex, List.length_append, ih, List.length_singleton]

/-- The byte of a hexadecimal digit. -/
theorem toNat_hexDigit {d : Nat} (h : d < 16) :
    (hexDigit d).toNat = if d < 10 then 0x30 + d else 0x57 + d := by
  rw [hexDigit, UInt8.toNat_ofNat']
  split <;> omega

/-- Hexadecimal digits differ. -/
theorem hexDigit_inj {d d' : Nat} (h : d < 16) (h' : d' < 16) (heq : hexDigit d = hexDigit d') :
    d = d' := by
  have hbyte := congrArg UInt8.toNat heq
  rw [toNat_hexDigit h, toNat_hexDigit h'] at hbyte
  split_ifs at hbyte <;> omega

/-- A number is told by its hexadecimal digits. -/
theorem hex_inj {w n n' : Nat} (h : n < 16 ^ w) (h' : n' < 16 ^ w) (heq : hex w n = hex w n') :
    n = n' := by
  induction w generalizing n n' with
  | zero => omega
  | succ w ih =>
      rw [Nat.pow_succ] at h h'
      obtain ⟨hfront, hlast⟩ :=
        List.append_inj heq ((length_hex w _).trans (length_hex w _).symm)
      have hquotient :=
        ih (Nat.div_lt_of_lt_mul (by omega)) (Nat.div_lt_of_lt_mul (by omega)) hfront
      have hdigit := hexDigit_inj (Nat.mod_lt _ (by decide)) (Nat.mod_lt _ (by decide))
        (List.head_eq_of_cons_eq hlast)
      omega

/-- No hexadecimal digit is a line break. -/
theorem ne_newline_of_mem_hex (w n : Nat) : ∀ b ∈ hex w n, b ≠ 0x0a := by
  induction w generalizing n with
  | zero => exact List.forall_mem_nil _
  | succ w ih =>
      refine List.forall_mem_append.2 ⟨ih _, List.forall_mem_singleton.2 ?_⟩
      intro h
      have hbyte := congrArg UInt8.toNat h
      have hvalue : (0x0a : UInt8).toNat = 10 := rfl
      rw [toNat_hexDigit (Nat.mod_lt _ (by decide)), hvalue] at hbyte
      split_ifs at hbyte <;> omega

end Bytes

/-! ## Units inside quotes -/

namespace Text

/-- The escapes of one letter: the number of the character and the letter. -/
def escapes : List (Nat × UInt8) :=
  [(0x22, 0x22), (0x5c, 0x5c), (0x07, 0x61), (0x08, 0x62), (0x0c, 0x66), (0x0a, 0x6e),
    (0x0d, 0x72), (0x09, 0x74), (0x0b, 0x76)]

/-- The escapes by number: their marks, and how many hexadecimal digits follow. -/
def marks : List (UInt8 × Nat) := [(0x78, 2), (0x75, 4), (0x55, 8)]

/-- The number of a unit. -/
def Glyph.number : Glyph → Nat
  | .char c => c.toNat
  | .stray b => b.toNat

/-- The unit is a byte that is part of no character. -/
def Glyph.isStray : Glyph → Bool
  | .char _ => false
  | .stray _ => true

/-- A unit is told by its number and whether it is part of a character. -/
theorem Glyph.eq_of_number {g g' : Glyph} (hnumber : g.number = g'.number)
    (hstray : g.isStray = g'.isStray) : g = g' := by
  cases g with
  | char c =>
      cases g' with
      | char c' => exact congrArg Glyph.char (Char.ext (UInt32.toNat_inj.1 hnumber))
      | stray b' => cases hstray
  | stray b =>
      cases g' with
      | char c' => cases hstray
      | stray b' => exact congrArg Glyph.stray (UInt8.toNat_inj.1 hnumber)

/-- The ways a unit is shown inside quotes: as it is, by a letter, or by its number.  The mark of
two digits is shared by the ASCII characters and the bytes that are part of no character. -/
inductive Quotes : Glyph → Bytes → Prop
  | shown (c : Char) (hprint : isPrintable c) (hne : c ≠ '\\') :
      Quotes (.char c) (String.utf8EncodeChar c)
  | letter (c : Char) (b : UInt8) (h : (c.toNat, b) ∈ escapes) : Quotes (.char c) [0x5c, b]
  | number (g : Glyph) (mark : UInt8) (width : Nat) (h : (mark, width) ∈ marks)
      (hlt : g.number < 16 ^ width)
      (hstray : g.isStray = (mark == 0x78 && decide (0x80 ≤ g.number))) :
      Quotes g (0x5c :: mark :: Bytes.hex width g.number)

/-- A letter of an escape is that of its character. -/
theorem mem_escapes {c : Char} {b : UInt8} (h : escapeLetter? c = some b) :
    (c.toNat, b) ∈ escapes := by
  unfold escapeLetter? at h
  split at h
  case h_8 => cases h
  all_goals
    next hnumber =>
      cases h
      rw [hnumber]
      decide

/-- A character is shown in one of the ways. -/
theorem quotes_quoteChar (c : Char) : Quotes (.char c) (quoteChar c) := by
  unfold quoteChar
  split
  · next hc =>
      simp only [Bool.or_eq_true, decide_eq_true_eq] at hc
      rcases hc with rfl | rfl
      · exact .letter '"' 0x22 (by decide)
      · exact .letter '\\' 0x5c (by decide)
  · next hc =>
      split
      · next hprint =>
          refine .shown c hprint ?_
          rintro rfl
          simp at hc
      · split
        · next b hb => exact .letter c b (mem_escapes hb)
        · split
          · next hlt =>
              exact .number (.char c) 0x78 2 (by decide) (Nat.lt_trans hlt (by decide))
                (decide_eq_false (Nat.not_le.2 hlt)).symm
          · split
            · next hlt => exact .number (.char c) 0x75 4 (by decide) hlt rfl
            · exact .number (.char c) 0x55 8 (by decide) c.val.toNat_lt rfl

/-- A proper unit is shown in one of the ways. -/
theorem quotes_quoteGlyph {g : Glyph} (hg : g.IsProper) : Quotes g (quoteGlyph g) := by
  cases g with
  | char c => exact quotes_quoteChar c
  | stray b =>
      refine .number (.stray b) 0x78 2 (by decide) b.toNat_lt ?_
      have hb : 0x80 ≤ b.toNat := hg
      simp [Glyph.isStray, Glyph.number, hb]

/-- A character that is shown as it is does not start with a backslash. -/
theorem encode_append_ne {c : Char} (hne : c ≠ '\\') (r r' : Bytes) :
    String.utf8EncodeChar c ++ r ≠ 0x5c :: r' := by
  intro h
  obtain ⟨b, bs, hbytes⟩ := List.exists_cons_of_ne_nil (String.utf8EncodeChar_ne_nil (c := c))
  rw [hbytes, List.cons_append] at h
  have hb : b = 0x5c := List.head_eq_of_cons_eq h
  have hmem : (0x5c : UInt8) ∈ String.utf8EncodeChar c := by
    rw [hbytes, hb]
    exact List.mem_cons_self
  have hnumber := toNat_of_mem_encode (by decide) hmem
  exact hne (Char.ext (UInt32.toNat_inj.1 hnumber))

/-- **A unit is told by the way it is shown**, whatever stands behind it. -/
theorem Quotes.inj {g g' : Glyph} {s s' r r' : Bytes} (h : Quotes g s) (h' : Quotes g' s')
    (heq : s ++ r = s' ++ r') : g = g' := by
  cases h with
  | shown c hprint hne =>
      cases h' with
      | shown c' hprint' hne' => exact congrArg Glyph.char (encode_append_inj heq)
      | letter c' b' hb' => exact absurd heq (encode_append_ne hne _ _)
      | number _ mark' width' hmark' hlt' hstray' => exact absurd heq (encode_append_ne hne _ _)
  | letter c b hb =>
      cases h' with
      | shown c' hprint' hne' => exact absurd heq.symm (encode_append_ne hne' _ _)
      | letter c' b' hb' =>
          simp only [List.cons_append, List.cons.injEq, true_and] at heq
          have hsame : (c.toNat, b) = (c'.toNat, b') :=
            (by decide : ∀ p ∈ escapes, ∀ q ∈ escapes, p.2 = q.2 → p = q) _ hb _ hb' heq.1
          exact Glyph.eq_of_number (congrArg Prod.fst hsame) rfl
      | number _ mark' width' hmark' hlt' hstray' =>
          simp only [List.cons_append, List.cons.injEq, true_and] at heq
          exact absurd heq.1
            ((by decide : ∀ p ∈ escapes, ∀ q ∈ marks, p.2 ≠ q.1) _ hb _ hmark')
  | number _ mark width hmark hlt hstray =>
      cases h' with
      | shown c' hprint' hne' => exact absurd heq.symm (encode_append_ne hne' _ _)
      | letter c' b' hb' =>
          simp only [List.cons_append, List.cons.injEq, true_and] at heq
          exact absurd heq.1.symm
            ((by decide : ∀ p ∈ escapes, ∀ q ∈ marks, p.2 ≠ q.1) _ hb' _ hmark)
      | number _ mark' width' hmark' hlt' hstray' =>
          simp only [List.cons_append, List.cons.injEq, true_and] at heq
          obtain ⟨rfl, hdigits⟩ := heq
          -- the mark tells how many digits there are
          obtain rfl : width = width' :=
            (by decide : ∀ p ∈ marks, ∀ q ∈ marks, p.1 = q.1 → p.2 = q.2) _ hmark _ hmark' rfl
          have hhex := (List.append_inj hdigits
            ((Bytes.length_hex _ _).trans (Bytes.length_hex _ _).symm)).1
          have hnumber := Bytes.hex_inj hlt hlt' hhex
          refine Glyph.eq_of_number hnumber ?_
          rw [hstray, hstray', hnumber]

/-- Every unit is shown by something. -/
theorem Quotes.ne_nil {g : Glyph} {s : Bytes} (h : Quotes g s) : s ≠ [] := by
  cases h with
  | shown c hprint hne => exact String.utf8EncodeChar_ne_nil
  | letter c b hb => exact List.cons_ne_nil _ _
  | number _ mark width hmark hlt hstray => exact List.cons_ne_nil _ _

/-- No unit is shown by a line break. -/
theorem Quotes.ne_newline {g : Glyph} {s : Bytes} (h : Quotes g s) : ∀ b ∈ s, b ≠ 0x0a := by
  cases h with
  | shown c hprint hne =>
      rintro _ hb rfl
      have hnumber : c.toNat = 10 := toNat_of_mem_encode (by decide) hb
      simp [isPrintable, hnumber] at hprint
  | letter c b hb =>
      refine List.forall_mem_cons.2 ⟨by decide, List.forall_mem_singleton.2 ?_⟩
      exact (by decide : ∀ p ∈ escapes, p.2 ≠ 0x0a) _ hb
  | number _ mark width hmark hlt hstray =>
      refine List.forall_mem_cons.2 ⟨by decide, List.forall_mem_cons.2 ⟨?_, ?_⟩⟩
      · exact (by decide : ∀ p ∈ marks, p.1 ≠ 0x0a) _ hmark
      · exact Bytes.ne_newline_of_mem_hex _ _

/-! ## Quoted texts -/

/-- **A text is told by its quoted form.** -/
theorem quote_injective : Function.Injective quote := by
  intro s s' h
  have hunits := List.append_cancel_right (List.cons_injective h)
  apply glyphs_injective
  refine eq_of_flatMap_eq (fun g hg => (quotes_quoteGlyph hg).ne_nil) ?_
    (isProper_of_mem_glyphs s) (isProper_of_mem_glyphs s') hunits
  intro g g' r r' hg hg' heq
  exact (quotes_quoteGlyph hg).inj (quotes_quoteGlyph hg') heq

/-- A quoted text has no line breaks. -/
theorem ne_newline_of_mem_quote (s : Bytes) : ∀ b ∈ quote s, b ≠ 0x0a := by
  refine List.forall_mem_append.2 ⟨List.forall_mem_cons.2 ⟨by decide, ?_⟩,
    List.forall_mem_singleton.2 (by decide)⟩
  intro b hb
  obtain ⟨g, hg, hb⟩ := List.mem_flatMap.1 hb
  exact (quotes_quoteGlyph (isProper_of_mem_glyphs s g hg)).ne_newline b hb

end Text

end LineCalc
