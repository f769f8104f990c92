import LineCalc.Proofs.Decimal.Shape
import LineCalc.Proofs.Table.Listing
import LineCalc.Snapshot.Document
import Mathlib.Data.List.Infix
import Mathlib.Tactic.NormNum
/-!
# Doubles in dumps

Every variable of a table is shown in its dump and in its document, and the text of a double has a
point there, whatever the double is.

* `Table.entry_infix_dump`, `Snapshot.item_infix_document` : what is shown of a variable;
* `Magnitude.toText_spec` : the form of the text of a magnitude;
* `Double.toText_ofBits_shape` : the form of the text of a double, told by the value of its bits.
-/
namespace LineCalc

/-! ## Variables in dumps -/

namespace Table

/-- A listing shows each of its variables. -/
theorem entry_infix_listing {ss : List Symbol} {y : Symbol} (h : y ∈ ss) :
    entry y <:+: listing ss := by
  induction ss with
  | nil => cases h
  | cons s ss ih =>
      rw [listing_cons]
      rcases List.mem_cons.1 h with rfl | h
      · exact ⟨[], moreEntries ss, rfl⟩
      · obtain ⟨s', ss', rfl⟩ := List.exists_cons_of_ne_nil (List.ne_nil_of_mem h)
        have hmore : listing (s' :: ss') <:+ moreEntries (s' :: ss') := ⟨[0x2c, 0x20], rfl⟩
        exact (ih h).trans (hmore.trans (List.suffix_append _ _)).isInfix

/-- **The dump of a table shows each of its variables.** -/
theorem entry_infix_dump {t : Table} {y : Symbol} (h : y ∈ t.symbols) : entry y <:+: t.dump := by
  have hkind : ∀ k, listing (t.byKind k) <:+: t.dump := by
    intro k
    unfold dump
    cases k with
    | int =>
        exact ⟨utf8 "Integers stored:\n",
          utf8 "\nDoubles stored:\n" ++ (listing (t.byKind .double) ++ utf8 "\n"),
          by simp only [List.append_assoc]⟩
    | double => exact ⟨_, utf8 "\n", rfl⟩
  have hmem : y ∈ t.byKind y.value.kind := List.mem_filter.2 ⟨h, by simp⟩
  exact (entry_infix_listing hmem).trans (hkind _)

end Table

namespace Snapshot

/-- The document of a snapshot shows each of its doubles. -/
theorem item_infix_document {s : Snapshot} {e : Entry} (h : e ∈ s.doubles) :
    item e <:+: s.document := by
  have hitem : item e <:+: s.doubles.flatMap item := by
    rw [List.flatMap_def]
    exact List.infix_of_mem_flatten (List.mem_map_of_mem h)
  have hlist : s.doubles.flatMap item <:+ list (utf8 "doubles") s.doubles := by
    rw [list, List.isEmpty_eq_false_iff.2 (List.ne_nil_of_mem h)]
    exact List.suffix_append _ _
  exact hitem.trans (hlist.trans (List.suffix_append _ _)).isInfix

/-- The doubles of a table have entries in its snapshot. -/
theorem exists_entry_of_mem {t : Table} {y : Symbol} {d : Double} (hy : y ∈ t.symbols)
    (hd : y.value = .double d) (run source : Bytes) :
    ∃ e ∈ (ofTable run source t).doubles, e.name = y.name ∧ e.value = .double d := by
  obtain ⟨i, hi⟩ := List.mem_iff_getElem?.1 hy
  refine ⟨⟨1 + i, y.name, y.value⟩, List.mem_filter.2 ⟨?_, ?_⟩, rfl, hd⟩
  · refine List.mem_map.2 ⟨(y, 1 + i), List.mem_of_getElem? (i := i) ?_, rfl⟩
    rw [List.getElem?_zipIdx, hi]
    rfl
  · rw [hd]
    rfl

end Snapshot

/-! ## The forms of doubles -/

namespace Magnitude

/-- **The form of the text of a magnitude.**  From a thousandth up to ten million, and for zero, it
is plain; elsewhere it has an exponent, which is on the same side of one as the magnitude. -/
theorem toText_spec (m : Magnitude) :
    (m.units = 0 ∨ unitsPerOne ≤ 1000 * m.units ∧ m.units < 10 ^ (7 : Nat) * unitsPerOne →
      Decimal.IsPlain m.toText) ∧
    (m.units ≠ 0 → 1000 * m.units < unitsPerOne →
      ∃ e ≤ -4, Decimal.IsScientific m.toText e) ∧
    (10 ^ (7 : Nat) * unitsPerOne ≤ m.units → ∃ e ≥ 7, Decimal.IsScientific m.toText e) := by
  have hpos := Double.unitsPerOne_pos
  have hscientific : m.units ≠ 0 → m.isPositional = false → (Decimal.shortest m).order ≠ 0 →
      Decimal.IsScientific m.toText (Decimal.shortest m).order := by
    intro hzero hposition horder
    rw [toText, if_neg hzero, hposition]
    exact Decimal.scientific_isScientific (Decimal.coefficient_shortest_ne_zero hzero) horder
  have hposition : m.isPositional =
      decide (unitsPerOne ≤ 1000 * m.units ∧ m.units < 10 ^ (7 : Nat) * unitsPerOne) :=
    (Bool.decide_and _ _).symm
  refine ⟨?_, ?_, ?_⟩
  · intro h
    unfold toText
    split
    · exact ⟨utf8 "0", utf8 "0", ⟨by decide, by decide⟩, ⟨by decide, by decide⟩, by decide⟩
    · next hzero =>
        rw [hposition, if_pos (decide_eq_true (h.resolve_left hzero))]
        exact Decimal.positional_isPlain _
  · intro hzero hless
    have horder := Decimal.order_shortest_le hzero hless
    refine ⟨_, horder, hscientific hzero ?_ (by omega)⟩
    rw [hposition]
    exact decide_eq_false (by omega)
  · intro hle
    have horder := Decimal.le_order_shortest hle
    refine ⟨_, horder, hscientific (by omega) ?_ (by omega)⟩
    rw [hposition]
    exact decide_eq_false (by omega)

/-- The text of a magnitude has a point. -/
theorem mem_toText (m : Magnitude) : 0x2e ∈ m.toText := by
  obtain ⟨hplain, hbelow, habove⟩ := m.toText_spec
  by_cases hrange : m.units = 0 ∨
      unitsPerOne ≤ 1000 * m.units ∧ m.units < 10 ^ (7 : Nat) * unitsPerOne
  · exact (hplain hrange).mem
  · rcases Nat.lt_or_ge (1000 * m.units) unitsPerOne with hless | hle
    · obtain ⟨e, -, he⟩ := hbelow (by omega) hless
      exact he.mem
    · obtain ⟨e, -, he⟩ := habove (by omega)
      exact he.mem

end Magnitude

namespace Double

variable {s : Bool} {m : Magnitude}

/-- The absolute value of a double. -/
theorem abs_rational : |rational s m| = (m.units : ℚ) / unitsPerOne := by
  have hnonneg : (0 : ℚ) ≤ m.units := Nat.cast_nonneg _
  have hsign : |(if s then -1 else 1 : ℚ)| = 1 := by
    cases s <;> simp
  rw [rational, cast_signed, abs_div, abs_mul, hsign, one_mul, abs_of_nonneg hnonneg,
    abs_of_pos unitsPerOne_pos_rat]

/-- A double is zero just if it has no units. -/
theorem rational_eq_zero_iff : rational s m = 0 ↔ m.units = 0 := by
  rw [← abs_eq_zero, abs_rational, div_eq_zero_iff, Nat.cast_eq_zero]
  exact or_iff_left unitsPerOne_pos_rat.ne'

/-- Its size is at least a thousandth just if a thousand of it have the units of one. -/
theorem le_abs_rational_iff :
    (10 : ℚ) ^ (-3 : ℤ) ≤ |rational s m| ↔ unitsPerOne ≤ 1000 * m.units := by
  have hunits := unitsPerOne_pos_rat
  have hpow : (10 : ℚ) ^ (-3 : ℤ) = 1 / 1000 := by norm_num
  rw [abs_rational, hpow]
  generalize unitsPerOne = u at hunits ⊢
  rw [div_le_div_iff₀ (by norm_num) hunits, one_mul, mul_comm (m.units : ℚ)]
  exact_mod_cast Iff.rfl

/-- Its size is below ten million just if it has fewer units than that. -/
theorem abs_rational_lt_iff :
    |rational s m| < 10 ^ (7 : ℤ) ↔ m.units < 10 ^ (7 : Nat) * unitsPerOne := by
  have hunits := unitsPerOne_pos_rat
  rw [abs_rational]
  generalize unitsPerOne = u at hunits ⊢
  rw [div_lt_iff₀ hunits]
  exact_mod_cast Iff.rfl

/-- The sign of a double is the highest of its bits. -/
theorem sign_ofBits {bits : UInt64} (h : ofBits bits = finite s m) :
    sign s = if bits.toNat / 2 ^ (63 : Nat) = 1 then utf8 "-" else [] := by
  have hlt : bits.toNat < 2 ^ (64 : Nat) := bits.toNat_lt
  have hbit : bits.toNat / 2 ^ (63 : Nat) = 1 ↔ 2 ^ (63 : Nat) ≤ bits.toNat := by omega
  have hs : s = decide (2 ^ (63 : Nat) ≤ bits.toNat) := by
    unfold ofBits at h
    extract_lets low negative fraction hf at h
    split at h
    · exact (finite.inj h).1.symm
    · split at h
      · exact (finite.inj h).1.symm
      · split at h
        · cases h
        · cases h
  have hminus : utf8 "-" = [0x2d] := by decide
  simp only [hs, hbit, sign, hminus, decide_eq_true_eq]

/-- **The shape of written doubles.**  Whatever finite double `q` some bits are, its text is a minus
just if the sign bit is set, and behind it

* digits around a point, if `q` is zero or its size is from `10 ^ -3` up to `10 ^ 7`;
* a digit other than zero, a point, digits, `E` and an exponent without a plus or zeros in front
  otherwise; the exponent is at most -4 below this range and at least 7 above it.

So it has a point, also where the dump and the document of a table show it. -/
theorem toText_ofBits_shape (bits : UInt64) (q : ℚ) (hq : valueOfBits? bits = some q) :
    let text := (ofBits bits).toText
    (∃ body, text = (if bits.toNat / 2 ^ (63 : Nat) = 1 then utf8 "-" else []) ++ body ∧
      (q = 0 ∨ 10 ^ (-3 : ℤ) ≤ |q| ∧ |q| < 10 ^ (7 : ℤ) → Decimal.IsPlain body) ∧
      (q ≠ 0 → |q| < 10 ^ (-3 : ℤ) → ∃ e ≤ -4, Decimal.IsScientific body e) ∧
      (10 ^ (7 : ℤ) ≤ |q| → ∃ e ≥ 7, Decimal.IsScientific body e)) ∧
    0x2e ∈ text ∧
    ∀ t : Table, ∀ y ∈ t.symbols, y.value = .double (ofBits bits) →
      utf8 "[" ++ y.name ++ utf8 " = " ++ text ++ utf8 "]" <:+: t.dump ∧
      ∀ run source,
        utf8 "    value: " ++ text ++ utf8 "\n" <:+: (Snapshot.ofTable run source t).document := by
  intro text
  rw [← value?_ofBits] at hq
  obtain ⟨s, m, hbits, rfl⟩ : ∃ s m, ofBits bits = finite s m ∧ rational s m = q := by
    cases h : ofBits bits with
    | nan => rw [h] at hq; cases hq
    | infinity s => rw [h] at hq; cases hq
    | finite s m =>
        rw [h] at hq
        exact ⟨s, m, rfl, Option.some.inj hq⟩
  have hzero := rational_eq_zero_iff (s := s) (m := m)
  have hlow := le_abs_rational_iff (s := s) (m := m)
  have hhigh := abs_rational_lt_iff (s := s) (m := m)
  have htext : text = sign s ++ m.toText := by
    simp only [text, hbits, toText]
  obtain ⟨hplain, hbelow, habove⟩ := m.toText_spec
  refine ⟨⟨m.toText, ?_, ?_, ?_, ?_⟩, ?_, ?_⟩
  · rw [htext, sign_ofBits hbits]
  · rwa [hzero, hlow, hhigh]
  · rwa [ne_eq, hzero, ← not_le, hlow, Nat.not_le]
  · rwa [← not_lt, hhigh, Nat.not_lt]
  · rw [htext]
    exact List.mem_append_right _ m.mem_toText
  · intro t y hy hvalue
    refine ⟨?_, fun run source => ?_⟩
    · have hentry := Table.entry_infix_dump hy
      rwa [Table.entry, hvalue] at hentry
    · obtain ⟨e, he, -, hevalue⟩ := Snapshot.exists_entry_of_mem hy hvalue run source
      refine List.IsInfix.trans ?_ (Snapshot.item_infix_document he)
      have hshown : Snapshot.valueText e.value = text := by
        rw [hevalue, hbits, htext]
        rfl
      rw [Snapshot.item, hshown]
      refine ⟨utf8 "  - name: " ++ Yaml.string 6 (Yaml.Tag.ofPlain e.name != .str) e.name, [], ?_⟩
      simp only [List.append_assoc, List.append_nil]

/-- The double below a thousandth in size has an exponent, and the one that a thousandth is rounded
to has none. -/
theorem toText_ofBits_shape_thousandth :
    (valueOfBits? 0xbf50624dd2f1a9fb = some (-4611686018427387 / 4611686018427387904) ∧
      ∃ body, (ofBits 0xbf50624dd2f1a9fb).toText = utf8 "-" ++ body ∧
        ∃ e ≤ -4, Decimal.IsScientific body e) ∧
    valueOfBits? 0x3f50624dd2f1a9fc = some (1152921504606847 / 1152921504606846976) ∧
      Decimal.IsPlain (ofBits 0x3f50624dd2f1a9fc).toText := by
  have hminus : UInt64.toNat 0xbf50624dd2f1a9fb = 0xbf50624dd2f1a9fb := rfl
  have hplus : UInt64.toNat 0x3f50624dd2f1a9fc = 0x3f50624dd2f1a9fc := rfl
  have hbelow : valueOfBits? 0xbf50624dd2f1a9fb =
      some (-4611686018427387 / 4611686018427387904) := by
    norm_num [valueOfBits?, hminus]
  have hat : valueOfBits? 0x3f50624dd2f1a9fc = some (1152921504606847 / 1152921504606846976) := by
    norm_num [valueOfBits?, hplus]
  refine ⟨⟨hbelow, ?_⟩, hat, ?_⟩
  · obtain ⟨⟨body, htext, -, hscientific, -⟩, -⟩ := toText_ofBits_shape _ _ hbelow
    rw [hminus, if_pos (by norm_num)] at htext
    exact ⟨body, htext, hscientific (by norm_num) (by norm_num [abs_lt])⟩
  · obtain ⟨⟨body, htext, hplain, -, -⟩, -⟩ := toText_ofBits_shape _ _ hat
    rw [hplus, if_neg (by norm_num), List.nil_append] at htext
    rw [htext]
    exact hplain (.inr ⟨by norm_num [le_abs], by norm_num [abs_lt]⟩)

end Double

end LineCalc
