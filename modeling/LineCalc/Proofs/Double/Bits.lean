import LineCalc.Proofs.Decimal.Text
import LineCalc.Value
/-!
# Doubles by their bits

A double that is a number has 64 bits of its own, and its text tells them: reading what was written
gives back every bit, also the sign of zero and of an infinity.

* `Double.toBits_ofBits` : a double keeps the bits it was made of;
* `Double.readDouble?_toText_of_ne_nan` : every number is read back from its text;
* `Value.read?_toText_ofBits` : so the text of a double stands for its bits, and for no others.
-/
namespace LineCalc

namespace Double

/-! ## Bit patterns -/

/-- The bits of no number: all bits of the exponent are set, and the fraction is not zero. -/
def IsNanBits (bits : UInt64) : Prop :=
  bits.toNat / 2 ^ (52 : Nat) % 2 ^ (11 : Nat) = 2047 ∧ bits.toNat % 2 ^ (52 : Nat) ≠ 0

/-- Whether bits are those of no number can be computed. -/
instance (bits : UInt64) : Decidable (IsNanBits bits) := inferInstanceAs (Decidable (_ ∧ _))

/-- A sign bit and 63 other bits fill a word. -/
theorem toNat_ofNat_signBit_add (negative : Bool) {low : Nat} (h : low < 2 ^ (63 : Nat)) :
    (UInt64.ofNat (signBit negative + low)).toNat = signBit negative + low := by
  rw [UInt64.toNat_ofNat']
  apply Nat.mod_eq_of_lt
  unfold signBit
  split
  · omega
  · omega

/-- The sign bit of a word and its other bits make up the word. -/
theorem signBit_add_mod (bits : UInt64) :
    signBit (2 ^ (63 : Nat) ≤ bits.toNat) + bits.toNat % 2 ^ (63 : Nat) = bits.toNat := by
  have hlt : bits.toNat < 2 ^ (64 : Nat) := bits.toNat_lt
  unfold signBit
  split
  · next h => simp only [decide_eq_true_eq] at h; omega
  · next h => simp only [decide_eq_true_eq] at h; omega

/-- **A double keeps the bits it was made of**, unless they are those of no number. -/
theorem toBits_ofBits {bits : UInt64} (h : ¬ IsNanBits bits) : (ofBits bits).toBits = bits := by
  have hword := signBit_add_mod bits
  have hlt : bits.toNat % 2 ^ (63 : Nat) < 2 ^ (63 : Nat) := Nat.mod_lt _ (by decide)
  unfold IsNanBits at h
  apply UInt64.toNat_inj.1
  unfold ofBits
  extract_lets low negative fraction hf
  -- the bits of the double add up to the lower bits of the word in every case
  have hbits : ∀ low', low' = low →
      (UInt64.ofNat (signBit negative + low')).toNat = bits.toNat := by
    rintro _ rfl
    rw [toNat_ofNat_signBit_add _ hlt]
    exact hword
  split
  · exact hbits (0 * 2 ^ (52 : Nat) + low) (by rw [Nat.zero_mul, Nat.zero_add])
  · split
    · next hz he =>
        exact hbits ((low / 2 ^ (52 : Nat) - 1) * 2 ^ (52 : Nat) + (fraction + 2 ^ (52 : Nat)))
          (by omega)
    · split
      · next hlow => exact hbits (2047 * 2 ^ (52 : Nat)) hlow.symm
      · exact absurd (by omega) h

/-- Only the bits of no number are made into none. -/
theorem ofBits_ne_nan {bits : UInt64} (h : ¬ IsNanBits bits) : ofBits bits ≠ .nan := by
  unfold IsNanBits at h
  unfold ofBits
  extract_lets low negative fraction hf
  split
  · simp
  · split
    · simp
    · split
      · simp
      · exact absurd (by omega) h

/-! ## Reading back -/

/-- An infinity is read back from its name. -/
theorem readDouble?_toText_infinity (negative : Bool) :
    readDouble? (infinity negative).toText = some (infinity negative) := by
  cases negative with
  | false => decide
  | true => decide

/-- **Every number is read back from its text**, be it finite or not. -/
theorem readDouble?_toText_of_ne_nan {x : Double} (h : x ≠ .nan) :
    readDouble? x.toText = some x := by
  cases x with
  | nan => exact absurd rfl h
  | infinity s => exact readDouble?_toText_infinity s
  | finite s m => exact readDouble?_toText rfl

end Double

namespace Value

/-- **The text of a double tells its bits.**  Whatever bits a double is made of, if they are those
of a number, then its text is read as a double of just these bits, and doubles of other bits have
other texts. -/
theorem read?_toText_ofBits (bits : UInt64) (h : ¬ Double.IsNanBits bits) :
    (∃ d, read? .double (double (.ofBits bits)).toText = some (double d) ∧ d.toBits = bits) ∧
    ∀ bits', ¬ Double.IsNanBits bits' →
      (double (.ofBits bits')).toText = (double (.ofBits bits)).toText → bits' = bits := by
  have hread : ∀ {bits}, ¬ Double.IsNanBits bits →
      read? .double (double (.ofBits bits)).toText = some (double (.ofBits bits)) := by
    intro bits h
    show (readDouble? (Double.ofBits bits).toText).map double = _
    rw [Double.readDouble?_toText_of_ne_nan (Double.ofBits_ne_nan h), Option.map_some]
  refine ⟨⟨_, hread h, Double.toBits_ofBits h⟩, ?_⟩
  intro bits' h' htext
  have hsame := hread h'
  rw [htext, hread h] at hsame
  have hdoubles : Double.ofBits bits = .ofBits bits' := double.inj (Option.some.inj hsame)
  rw [← Double.toBits_ofBits h', ← hdoubles, Double.toBits_ofBits h]

/-- The least positive double, minus zero and minus infinity. -/
theorem read?_toText_ofBits_least :
    (∃ d, read? .double (utf8 "5.0E-324") = some (double d) ∧ d.toBits = 1) ∧
    (double (.ofBits 0)).toText ≠ (double (.ofBits 0x8000000000000000)).toText ∧
    ∃ d, read? .double (utf8 "-Infinity") = some (double d) ∧ d.toBits = 0xfff0000000000000 := by
  have hleast : (double (.ofBits 1)).toText = utf8 "5.0E-324" := by decide +kernel
  have hinfinity : (double (.ofBits 0xfff0000000000000)).toText = utf8 "-Infinity" := by
    decide +kernel
  refine ⟨?_, ?_, ?_⟩
  · rw [← hleast]
    exact (read?_toText_ofBits 1 (by decide)).1
  · intro htext
    have hbits := (read?_toText_ofBits 0x8000000000000000 (by decide)).2 0 (by decide) htext
    exact absurd hbits (by decide)
  · rw [← hinfinity]
    exact (read?_toText_ofBits 0xfff0000000000000 (by decide)).1

end Value

end LineCalc
