import LineCalc.Proofs.Line.Grammar
import Mathlib.Data.Nat.Digits.Defs
/-!
# Integer literals

A line gives an integer variable the very integer that its literal writes in base ten, whatever the
number of its digits, or it complains that the literal has a point or that the integer does not have
64 bits.

* `Phrase.integer` : the integer that a literal writes;
* `Phrase.readInt?_eq` : how a literal is read;
* `Step.gives_integer` : what the line does.
-/
namespace LineCalc

namespace Phrase

/-! ## The integer of a literal -/

/-- The integer that a literal without a point writes: its digits in base ten, the last one the
lowest, turned around by a minus in front of them. -/
def integer (value : Bytes) : Int :=
  let size : Nat := Nat.ofDigits 10 ((value.filter (· ∈ digits)).reverse.map (digits.idxOf ·))
  if value.head? = some 0x2d then -size else size

/-- A digit is worth its place among the digits. -/
theorem idxOf_digits : ∀ d ∈ digits, digits.idxOf d = Bytes.digitValue d := by
  decide

/-- What digits write is the number that is read from them. -/
theorem ofDigits_eq_toNat {ds : Bytes} (h : ∀ d ∈ ds, d ∈ digits) :
    Nat.ofDigits 10 (ds.reverse.map (digits.idxOf ·)) = Bytes.toNat ds := by
  have hvalues : ds.reverse.map (digits.idxOf ·) = ds.reverse.map Bytes.digitValue :=
    List.map_congr_left fun d hd => idxOf_digits d (h d (List.mem_reverse.1 hd))
  rw [hvalues, Nat.ofDigits_eq_foldr, List.foldr_map, List.foldr_reverse, Bytes.toNat]
  congr 1
  funext n d
  exact Nat.add_comm _ _

section Literals

variable {sign number value : Bytes}

/-- Without a point, a number is digits. -/
theorem IsNumber.forall_mem (h : IsNumber number) (hpoint : 0x2e ∉ number) :
    ∀ d ∈ number, d ∈ digits := by
  intro d hd
  obtain ⟨-, hbytes⟩ := Layout.digit_or_point (isNumber_iff.1 h)
  rw [mem_digits_iff]
  refine (hbytes d hd).resolve_right ?_
  rintro rfl
  exact hpoint hd

/-- The sign and the digits of a literal apart. -/
theorem integer_append (hs : IsSign sign) (hn : IsNumber number) (hpoint : 0x2e ∉ number) :
    integer (sign ++ number) = Double.signed (sign = utf8 "-") (Bytes.toNat number) := by
  have hdigits := hn.forall_mem hpoint
  have hfilter : (sign ++ number).filter (· ∈ digits) = number := by
    have hsign : sign.filter (· ∈ digits) = [] := by
      rcases hs with rfl | rfl | rfl <;> decide
    rw [List.filter_append, hsign, List.nil_append, List.filter_eq_self]
    exact fun d hd => decide_eq_true (hdigits d hd)
  have hhead : (sign ++ number).head? = some 0x2d ↔ sign = utf8 "-" := by
    rcases hs with rfl | rfl | rfl
    · obtain ⟨⟨d, r, hd, rfl⟩, -⟩ := Layout.digit_or_point (isNumber_iff.1 hn)
      have hne : d ≠ 0x2d := by
        rintro rfl
        cases hd
      have hempty : ([] : Bytes) ≠ utf8 "-" := by decide
      simp [hne, hempty]
    · have hplus : utf8 "+" ≠ utf8 "-" := by decide
      have hfirst : (utf8 "+" ++ number).head? = some 0x2b := rfl
      simp [hfirst, hplus]
    · have hfirst : (utf8 "-" ++ number).head? = some 0x2d := rfl
      simp [hfirst]
  unfold integer
  simp only [hfilter, ofDigits_eq_toNat hdigits, hhead, Double.signed, decide_eq_true_eq]

/-- **How a literal is read as an integer.** -/
theorem readInt?_eq (h : IsLiteral value) : readInt? value =
    if 0x2e ∈ value ∨ integer value < -2 ^ (63 : Nat) ∨ 2 ^ (63 : Nat) - 1 < integer value then none
    else some (Int64.ofInt (integer value)) := by
  obtain ⟨sign, number, hs, hn, rfl⟩ := h
  have hspells := isNumber_iff.1 hn
  have hmem : 0x2e ∈ sign ++ number ↔ 0x2e ∈ number := by
    have hsign : 0x2e ∉ sign := by
      rcases hs with rfl | rfl | rfl <;> decide
    rw [List.mem_append, or_iff_right hsign]
  by_cases hpoint : 0x2e ∈ number
  · rw [if_pos (.inl (hmem.2 hpoint))]
    have hform : (number.isEmpty || !number.all Bytes.isDigit) = true := by
      have hall : number.all Bytes.isDigit = false :=
        List.all_eq_false.2 ⟨0x2e, hpoint, by decide⟩
      rw [hall, Bool.not_false, Bool.or_true]
    unfold readInt?
    rw [splitSign_number hs hspells]
    simp only [hform, if_true]
  · rw [readInt?_number hs hspells hpoint, ← integer_append hs hn hpoint]
    by_cases hrange : -2 ^ (63 : Nat) ≤ integer (sign ++ number) ∧
        integer (sign ++ number) < 2 ^ (63 : Nat)
    · rw [if_pos hrange, if_neg]
      rintro (hmember | hout)
      · exact hpoint (hmem.1 hmember)
      · omega
    · rw [if_neg hrange, if_pos (.inr (by omega))]

end Literals

/-- What a declaration gives is a literal. -/
theorem Matches.isLiteral_of_declaration {type name value line : Bytes}
    (h : Phrase.Matches (.declaration type name (some value)) line) : IsLiteral value := by
  cases h
  assumption

/-- What an assignment gives is a literal. -/
theorem Matches.isLiteral_of_literal {name value line : Bytes}
    (h : Phrase.Matches (.literal name value) line) : IsLiteral value := by
  cases h
  assumption

end Phrase

/-! ## Lines that give an integer -/

namespace Reading

variable {name value line : Bytes} {s : Statement}

/-- A declaration of an integer with a literal gives it. -/
theorem gives_of_declaration (t : Table)
    (h : s.phrase? = some (.declaration (utf8 "int") name (some value))) :
    ∃ l : Literal, s.Gives t .int name l ∧ l.text = value := by
  cases s with
  | declaration type target v =>
      obtain ⟨htype, htarget, hvalue⟩ := Phrase.declaration.inj (Option.some.inj h)
      obtain ⟨l, rfl, hl⟩ := Option.map_eq_some_iff.1 hvalue
      exact ⟨l, .declaration (by rw [htype]; rfl) htarget, hl⟩
  | assignment target e => cases e <;> cases h
  | print keyword text body e => cases h

/-- An assignment of a literal to an integer gives it. -/
theorem gives_of_literal {t : Table} {i : Int64} (hfind : t.find? name = some (.int i))
    (h : s.phrase? = some (.literal name value)) :
    ∃ l : Literal, s.Gives t .int name l ∧ l.text = value := by
  cases s with
  | declaration type target v => cases h
  | assignment target e =>
      cases e with
      | number l =>
          obtain ⟨htarget, hl⟩ := Phrase.literal.inj (Option.some.inj h)
          exact ⟨l, .assignment htarget hfind rfl, hl⟩
      | ident u => cases h
      | unary op e => cases h
      | binary op left right => cases h
  | print keyword text body e => cases h

end Reading

namespace Step

/-- **What is stored of an integer literal.**  In either mode, for a line that declares an integer
with a literal, under a name that is new or has an integer, and for a line that assigns a literal to
an integer:

* the line complains about the literal just if this has a point or the integer that it writes does
  not have 64 bits;
* otherwise nothing is complained about, and the name has just this integer. -/
theorem gives_integer (lenient : Bool) (t : Table) (number : Int) (line name value : Bytes)
    (h : (Phrase.declaration (utf8 "int") name (some value)).Matches line ∧
          (∀ v, t.find? name = some v → v.kind = .int) ∨
        (Phrase.literal name value).Matches line ∧ ∃ i, t.find? name = some (.int i)) :
    let step := ofLine lenient t number line
    (step.Reports .literal ↔ 0x2e ∈ value ∨ Phrase.integer value < -2 ^ (63 : Nat) ∨
      2 ^ (63 : Nat) - 1 < Phrase.integer value) ∧
    (¬ step.Reports .literal → step.diagnostic? = none ∧
      ∃ i : Int64, step.table.find? name = some (.int i) ∧ i.toInt = Phrase.integer value) := by
  intro step
  obtain ⟨s, l, hs, hgives, hroom, rfl, hliteral⟩ : ∃ s l,
      (Reading.ofLine lenient number line).outcome = .ok s ∧ s.Gives t .int name l ∧
        (∀ v, t.find? name = some v → v.kind = .int) ∧ l.text = value ∧
          Phrase.IsLiteral value := by
    rcases h with ⟨hmatches, hroom⟩ | ⟨hmatches, i, hfind⟩
    · obtain ⟨s, hs, hphrase⟩ := Reading.exists_outcome_of_matches hmatches lenient number
      obtain ⟨l, hgives, hl⟩ := Reading.gives_of_declaration t hphrase
      exact ⟨s, l, hs, hgives, hroom, hl, hmatches.isLiteral_of_declaration⟩
    · obtain ⟨s, hs, hphrase⟩ := Reading.exists_outcome_of_matches hmatches lenient number
      obtain ⟨l, hgives, hl⟩ := Reading.gives_of_literal hfind hphrase
      refine ⟨s, l, hs, hgives, ?_, hl, hmatches.isLiteral_of_literal⟩
      intro v hv
      obtain rfl := Option.some.inj (hfind.symm.trans hv)
      rfl
  have hread : Value.read? .int l.text = (readInt? l.text).map .int := rfl
  rw [Phrase.readInt?_eq hliteral] at hread
  split at hread
  · next hbad =>
      have hreports : step.Reports .literal := reports_of_gives hs hgives hread
      exact ⟨iff_of_true hreports hbad, fun hnot => absurd hreports hnot⟩
  · next hgood =>
      obtain ⟨hnone, hfind⟩ : step.diagnostic? = none ∧ step.table.find? name = _ :=
        holds_of_gives hs hgives hroom hread
      have hreports : ¬ step.Reports .literal := by
        rintro ⟨d, hsome, -⟩
        rw [hnone] at hsome
        cases hsome
      refine ⟨iff_of_false hreports hgood, fun _ => ⟨hnone, _, hfind, ?_⟩⟩
      exact Int64.toInt_ofInt_of_le (by omega) (by omega)

/-- The least integer can be declared, with zeros in front, and the one above the greatest cannot be
assigned. -/
theorem gives_integer_least :
    let declared := ofLine false .empty 1 (utf8 "int x = -0009223372036854775808;")
    (declared.diagnostic? = none ∧
      ∃ i : Int64, declared.table.find? (utf8 "x") = some (.int i) ∧ i.toInt = -2 ^ (63 : Nat)) ∧
    (ofLine true declared.table 2 (utf8 "x=+9223372036854775808")).Reports .literal := by
  intro declared
  have hdeclaration : (Reading.ofLine false 1 (utf8 "int x = -0009223372036854775808;")).outcome =
      .ok (.declaration ⟨.ident, "int", 1, 1⟩ ⟨.ident, "x", 1, 5⟩
        (some ⟨some ⟨.minus, "-", 1, 9⟩, ⟨.number, "0009223372036854775808", 1, 10⟩⟩)) := by
    decide +kernel
  have hassignment : (Reading.ofLine true 2 (utf8 "x=+9223372036854775808")).outcome =
      .ok (.assignment ⟨.ident, "x", 2, 1⟩
        (.number ⟨some ⟨.plus, "+", 2, 3⟩, ⟨.number, "9223372036854775808", 2, 4⟩⟩)) := by
    decide +kernel
  have hleast : Phrase.integer (utf8 "-0009223372036854775808") = -2 ^ (63 : Nat) := by
    decide +kernel
  have habove : Phrase.integer (utf8 "+9223372036854775808") = 2 ^ (63 : Nat) := by
    decide +kernel
  have hdeclares : (Phrase.declaration (utf8 "int") (utf8 "x")
      (some (utf8 "-0009223372036854775808"))).Matches
        (utf8 "int x = -0009223372036854775808;") :=
    Reading.matches_of_outcome (by rintro b ⟨⟩; decide) hdeclaration rfl
  have hassigns : (Phrase.literal (utf8 "x") (utf8 "+9223372036854775808")).Matches
      (utf8 "x=+9223372036854775808") :=
    Reading.matches_of_outcome (by rintro b ⟨⟩; decide) hassignment rfl
  obtain ⟨hdeclared, hstored⟩ := gives_integer false .empty 1 _ _ _
    (.inl ⟨hdeclares, fun v hv => by cases hv⟩)
  rw [hleast] at hdeclared hstored
  obtain ⟨hnone, i, hfind, hi⟩ := hstored (by rw [hdeclared]; decide)
  obtain ⟨hassigned, -⟩ := gives_integer true declared.table 2 _ _ _
    (.inr ⟨hassigns, i, hfind⟩)
  rw [habove] at hassigned
  exact ⟨⟨hnone, i, hfind, hi⟩, hassigned.2 (by decide)⟩

end Step

end LineCalc
