import LineCalc.Text.Blank
import Mathlib.Data.List.TakeWhile
/-!
# White space in ASCII texts

All white space of an ASCII text is single bytes, so squeezing filters them out and trimming takes
them off the ends.
-/

/- What holds of all bytes of a literal is decided on the literal, whatever other instances are at
hand, and not on all bytes there are. -/
attribute [instance (2000)] List.decidableBAll

namespace LineCalc.Text

/-- A byte that is part of no longer white space than itself. -/
def isAscii (b : UInt8) : Bool := b < 0x80

/-- No ASCII byte starts white space of two bytes. -/
theorem isPairBlank_of_isAscii {a b : UInt8} (h : isAscii a) : isPairBlank a b = false := by
  grind [isAscii, isPairBlank]

/-- No ASCII byte starts white space of three bytes. -/
theorem isWideBlank_of_isAscii {a b c : UInt8} (h : isAscii a) : isWideBlank a b c = false := by
  grind [isAscii, isWideBlank]

/-- No ASCII byte ends white space of two bytes. -/
theorem isPairBlank_of_isAscii_last {a b : UInt8} (h : isAscii b) : isPairBlank a b = false := by
  grind [isAscii, isPairBlank]

/-- No ASCII byte ends white space of three bytes. -/
theorem isWideBlank_of_isAscii_last {a b c : UInt8} (h : isAscii c) :
    isWideBlank a b c = false := by
  grind [isAscii, isWideBlank]

/-! ## Squeezing -/

/-- The byte starts no white space. -/
def isPlain (b : UInt8) : Bool :=
  !isAsciiBlank b && b != 0xc2 && b != 0xe1 && b != 0xe2 && b != 0xe3

/-- An ASCII byte that is not blank is plain. -/
theorem isPlain_of_isAscii {b : UInt8} (h : isAscii b) (hblank : isAsciiBlank b = false) :
    isPlain b := by
  grind [isAscii, isPlain]

/-- A plain byte stays. -/
theorem squeeze_cons_of_isPlain {a : UInt8} (r : Bytes) (h : isPlain a) :
    squeeze (a :: r) = a :: squeeze r := by
  have hblank : isAsciiBlank a = false := by grind [isPlain]
  have hpair (b : UInt8) : isPairBlank a b = false := by grind [isPlain, isPairBlank]
  have hwide (b c : UInt8) : isWideBlank a b c = false := by grind [isPlain, isWideBlank]
  rw [squeeze.eq_def]
  simp only [hblank]
  cases r with
  | nil => rw [squeeze]; rfl
  | cons b r =>
      cases r with
      | nil => simp [hpair]
      | cons c r => simp [hpair, hwide]

/-- An ASCII byte that is not blank stays. -/
theorem squeeze_cons_of_isAscii {a : UInt8} (r : Bytes) (ha : isAscii a)
    (hblank : isAsciiBlank a = false) : squeeze (a :: r) = a :: squeeze r :=
  squeeze_cons_of_isPlain r (isPlain_of_isAscii ha hblank)

/-- A blank byte goes. -/
theorem squeeze_cons_of_isAsciiBlank {a : UInt8} (r : Bytes) (h : isAsciiBlank a) :
    squeeze (a :: r) = squeeze r := by
  rw [squeeze.eq_def]
  simp only [h, if_true]

/-- Squeezing an ASCII text drops its blank bytes. -/
theorem squeeze_eq_filter {s : Bytes} (h : ∀ b ∈ s, isAscii b) :
    squeeze s = s.filter (!isAsciiBlank ·) := by
  induction s with
  | nil => rw [squeeze]; rfl
  | cons a r ih =>
      obtain ⟨ha, hr⟩ := List.forall_mem_cons.1 h
      cases hblank : isAsciiBlank a with
      | true => rw [squeeze_cons_of_isAsciiBlank r hblank, ih hr]; simp [hblank]
      | false => rw [squeeze_cons_of_isAscii r ha hblank, ih hr]; simp [hblank]

/-- No blank byte is left. -/
theorem isAsciiBlank_of_mem_squeeze (s : Bytes) : ∀ b ∈ squeeze s, isAsciiBlank b = false := by
  fun_induction squeeze s with
  | case1 => simp
  | case2 a r h ih => exact ih
  | case3 a _ b c r hpair ih => exact ih
  | case4 a _ b c r _ hwide ih => exact ih
  | case5 a h b c r _ _ ih => exact List.forall_mem_cons.2 ⟨by simpa using h, ih⟩
  | case6 => simp
  | case7 a h b _ ih => exact List.forall_mem_cons.2 ⟨by simpa using h, ih⟩
  | case8 a h => simpa using h

/-- A byte that is not blank, and no part of longer white space. -/
def isSolid (b : UInt8) : Bool := isAscii b && !isAsciiBlank b

/-- The text is ASCII, and `r` is left of it without its blank bytes. -/
structure Squeezes (s r : Bytes) : Prop where
  ascii : ∀ b ∈ s, isAscii b
  eq : squeeze s = r

/-- Texts are squeezed one after the other. -/
theorem Squeezes.append {s r s' r' : Bytes} (h : Squeezes s r) (h' : Squeezes s' r') :
    Squeezes (s ++ s') (r ++ r') := by
  have hascii : ∀ b ∈ s ++ s', isAscii b := List.forall_mem_append.2 ⟨h.ascii, h'.ascii⟩
  refine ⟨hascii, ?_⟩
  rw [squeeze_eq_filter hascii, List.filter_append, ← squeeze_eq_filter h.ascii, h.eq,
    ← squeeze_eq_filter h'.ascii, h'.eq]

/-- A solid text stays as it is. -/
theorem squeezes_of_isSolid {s : Bytes} (h : ∀ b ∈ s, isSolid b) : Squeezes s s := by
  simp only [isSolid, Bool.and_eq_true] at h
  have hascii : ∀ b ∈ s, isAscii b := fun b hb => (h b hb).1
  refine ⟨hascii, ?_⟩
  rw [squeeze_eq_filter hascii, List.filter_eq_self]
  exact fun b hb => (h b hb).2

/-- Nothing is left of a space. -/
theorem squeezes_space : Squeezes (utf8 " ") [] := by
  refine ⟨by decide, ?_⟩
  rw [squeeze_eq_filter (by decide)]
  decide

/-! ## Trimming -/

/-- Blank bytes at the front go. -/
theorem dropBlanks_append {ws : Bytes} (hws : ∀ b ∈ ws, isAsciiBlank b) (s : Bytes) :
    dropBlanks (ws ++ s) = dropBlanks s := by
  induction ws with
  | nil => rfl
  | cons a r ih =>
      obtain ⟨ha, hr⟩ := List.forall_mem_cons.1 hws
      rw [List.cons_append, dropBlanks.eq_def]
      simp only [ha, if_true]
      exact ih hr

/-- A text that starts with an ASCII byte that is not blank keeps its front. -/
theorem dropBlanks_cons {a : UInt8} (r : Bytes) (ha : isAscii a) (hblank : isAsciiBlank a = false) :
    dropBlanks (a :: r) = a :: r := by
  rw [dropBlanks.eq_def]
  simp only [hblank]
  cases r with
  | nil => rfl
  | cons b r =>
      cases r with
      | nil => simp [isPairBlank_of_isAscii ha]
      | cons c r => simp [isPairBlank_of_isAscii ha, isWideBlank_of_isAscii ha]

/-- A text that ends with an ASCII byte that is not blank keeps its end. -/
theorem dropBlanksBack_cons {a : UInt8} (r : Bytes) (ha : isAscii a)
    (hblank : isAsciiBlank a = false) : dropBlanksBack (a :: r) = a :: r := by
  rw [dropBlanksBack.eq_def]
  simp only [hblank]
  cases r with
  | nil => rfl
  | cons b r =>
      cases r with
      | nil => simp [isPairBlank_of_isAscii_last ha]
      | cons c r => simp [isPairBlank_of_isAscii_last ha, isWideBlank_of_isAscii_last ha]

/-- Trimming takes blank bytes off the front of a text that starts and ends with solid ones. -/
theorem trim_append {ws s : Bytes} (hws : ∀ b ∈ ws, isAsciiBlank b)
    (hfirst : ∀ b ∈ s.head?, isSolid b) (hlast : ∀ b ∈ s.getLast?, isSolid b) :
    trim (ws ++ s) = s := by
  simp only [isSolid, Bool.and_eq_true, Bool.not_eq_true'] at hfirst hlast
  rw [trim, dropBlanks_append hws]
  cases s with
  | nil => simp [dropBlanks, dropBlanksBack]
  | cons a r =>
      obtain ⟨ha, hblank⟩ := hfirst a rfl
      rw [dropBlanks_cons r ha hblank]
      obtain ⟨c, r', hrev⟩ := List.exists_cons_of_ne_nil
        (List.reverse_ne_nil_iff.2 (List.cons_ne_nil a r))
      have hc : c ∈ (a :: r).getLast? := by rw [← List.head?_reverse, hrev]; rfl
      obtain ⟨hascii, hcblank⟩ := hlast c hc
      rw [hrev, dropBlanksBack_cons r' hascii hcblank, ← hrev, List.reverse_reverse]

/-- A carriage return is blank, and no part of longer white space. -/
theorem dropBlanks_concat_return (s : Bytes) :
    dropBlanks (s ++ [0x0d]) = if dropBlanks s = [] then [] else dropBlanks s ++ [0x0d] := by
  have hreturn : isAsciiBlank 0x0d = true := by decide
  have hpair (a : UInt8) : isPairBlank a 0x0d = false := isPairBlank_of_isAscii_last (by decide)
  have hwide (a b : UInt8) : isWideBlank a b 0x0d = false :=
    isWideBlank_of_isAscii_last (by decide)
  fun_induction dropBlanks s with
  | case1 => simp [dropBlanks, hreturn]
  | case2 a r ha ih =>
      rw [List.cons_append, dropBlanks.eq_def]
      simpa only [ha, if_true] using ih
  | case3 a ha b c r hab ih => simpa [dropBlanks, ha, hab] using ih
  | case4 a ha b c r hab habc ih => simpa [dropBlanks, ha, hab, habc] using ih
  | case5 a ha b c r hab habc => simp [dropBlanks, ha, hab, habc]
  | case6 a ha b hab => simp [dropBlanks, ha, hab, hreturn]
  | case7 a ha b hab => simp [dropBlanks, ha, hab, hwide]
  | case8 a ha => simp [dropBlanks, ha, hpair]

/-- Trimming takes a carriage return at the end off, too. -/
theorem trim_concat_return (s : Bytes) : trim (s ++ [0x0d]) = trim s := by
  rw [trim, trim, dropBlanks_concat_return]
  split
  · next h => rw [h]
  · rw [List.reverse_append, List.reverse_singleton, List.singleton_append,
      dropBlanksBack.eq_def]
    simp only [show isAsciiBlank 0x0d = true by decide, if_true]

end LineCalc.Text
