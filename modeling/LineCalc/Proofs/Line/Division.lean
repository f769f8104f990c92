import LineCalc.Proofs.Expr.Descent
import LineCalc.Proofs.Expr.Division
import LineCalc.Proofs.Expr.Shown
import LineCalc.Proofs.Line.Print
/-!
# Print lines that divide by zero

What a print line over integers shows.  It complains about a division by zero if there is one, and
also if a sum, a difference or a product leaves the range of doubles; else it shows the value
without its fraction and within 64 bits.

* `Step.reportsDivision_of_spoiled`, `Step.showsInteger_of_finite` : the two ends of such a line,
  told by its value;
* `Step.reportsDivision_of_dividesByZero` : no division by zero goes unnoticed;
* `Step.reportsDivision_iff` : what is reported as one, and what is shown otherwise.
-/
namespace LineCalc.Step

/-- The line is repeated and complained about as a division by zero, and the table stays. -/
structure ReportsDivision (s : Step) (t : Table) (line : Bytes) : Prop where
  diagnostic : ∃ d, s.diagnostic? = some d ∧ d.code = .arithmetic ∧ d.args = [divisionByZero]
  output : s.output = [line]
  table : s.table = t

/-- The line is repeated and shows an integer within 64 bits, and the table stays. -/
structure ShowsInteger (s : Step) (t : Table) (line : Bytes) (i : Int) : Prop where
  diagnostic : s.diagnostic? = none
  output : s.output = [line, utf8 "Result: " ++
    Bytes.ofInt (max (-2 ^ (63 : Nat)) (min i (2 ^ (63 : Nat) - 1))), []]
  table : s.table = t

variable {lenient : Bool} {t : Table} {number : Int} {line : Bytes} {keyword : Token}
  {source body : Bytes} {e : Expr} {x : Double}

/-! ## By the value -/

/-- A value that is not finite is reported as a division by zero. -/
theorem reportsDivision_of_spoiled
    (hread : (Reading.ofLine lenient number line).outcome =
      .ok (.print keyword source body (some e)))
    (hx : e.eval t = .ok ⟨x, true⟩) (hspoiled : x.isFinite = false) :
    (ofLine lenient t number line).ReportsDivision t line := by
  have htext : Result.toText? ⟨x, true⟩ = none := Result.toText?_eq_none_iff.2 hspoiled
  have hexec : (Statement.print keyword source body (some e)).exec t =
      .error ⟨.arithmetic, keyword, [divisionByZero]⟩ := by
    simp only [Statement.exec, Statement.execPrint, hx, bind, Except.bind, htext]
    rfl
  rw [ofLine_of_outcome hread, execute, hexec]
  refine ⟨⟨_, rfl, code_place number _, ?_⟩, rfl, rfl⟩
  unfold place
  split
  · rfl
  · rfl

/-- A finite value is shown without its fraction. -/
theorem showsInteger_of_finite
    (hread : (Reading.ofLine lenient number line).outcome =
      .ok (.print keyword source body (some e)))
    (hx : e.eval t = .ok ⟨x, true⟩) (hfinite : x.isFinite) :
    ∃ i, x.truncate? = some i ∧ (ofLine lenient t number line).ShowsInteger t line i := by
  obtain ⟨s, m, rfl⟩ := Double.isFinite_iff.1 hfinite
  have hshows : (ofLine lenient t number line).Shows t line _ :=
    shows_of_eval hread hx (Result.toText?_finite s m)
  exact ⟨_, rfl, hshows.diagnostic, hshows.output, hshows.table⟩

/-! ## By the operations -/

/-- **No division by zero goes unnoticed.**  If an operation of a print line over integers divides
by zero, the line is reported and shows no result, whatever is computed around the division. -/
theorem reportsDivision_of_dividesByZero (lenient : Bool) (t : Table) (number : Int) (line : Bytes)
    (keyword : Token) (source body : Bytes) (e : Expr)
    (hread : (Reading.ofLine lenient number line).outcome =
      .ok (.print keyword source body (some e)))
    (hi : e.IsIntegral t) (hdivides : e.DividesByZero t) :
    (ofLine lenient t number line).ReportsDivision t line := by
  have hshaped := (Reading.exists_tokens_eq hread).1
  obtain ⟨x, hx⟩ := hi.exists_eval
  apply reportsDivision_of_spoiled hread hx
  rw [Bool.eq_false_iff]
  intro hfinite
  exact ((hshaped.isFinite_iff hi hx).1 hfinite).1 hdivides

/-- An infinity survives the terms around it. -/
theorem reportsDivision_quotient_in_sum :
    (ofLine true ⟨[⟨"x", .int 0, 1⟩], by simp⟩ 2 "print(2-1/-x*3);").ReportsDivision
      ⟨[⟨"x", .int 0, 1⟩], by simp⟩ "print(2-1/-x*3);" := by
  have hread : (Reading.ofLine true 2 "print(2-1/-x*3);").outcome =
      .ok (.print ⟨.ident, "print", 2, 1⟩ "print(2-1/-x*3);" "2-1/-x*3" (some
        (.binary ⟨.minus, "-", 2, 2⟩ (.number ⟨none, ⟨.number, "2", 2, 1⟩⟩)
          (.binary ⟨.times, "*", 2, 7⟩
            (.binary ⟨.slash, "/", 2, 4⟩ (.number ⟨none, ⟨.number, "1", 2, 3⟩⟩)
              (.unary ⟨.minus, "-", 2, 5⟩ (.ident ⟨.ident, "x", 2, 6⟩)))
            (.number ⟨none, ⟨.number, "3", 2, 8⟩⟩))))) := by
    decide +kernel
  exact reportsDivision_of_dividesByZero _ _ _ _ _ _ _ _ hread (by decide +kernel)
    (by decide +kernel)

/-- **What is reported as a division by zero.**  A print line over integers is reported just if an
operation divides by zero, or if a sum, a difference or a product leaves the range of doubles, for
which more than sixteen operands are needed.  Otherwise the line shows its value, saturated. -/
theorem reportsDivision_iff (lenient : Bool) (t : Table) (number : Int) (line : Bytes)
    (keyword : Token) (source body : Bytes) (e : Expr)
    (hread : (Reading.ofLine lenient number line).outcome =
      .ok (.print keyword source body (some e)))
    (hi : e.IsIntegral t) :
    let s := ofLine lenient t number line
    ((∃ d, s.diagnostic? = some d ∧ d.code = .arithmetic) ↔ e.DividesByZero t ∨ e.Overflows t) ∧
    (e.DividesByZero t ∨ e.Overflows t → s.ReportsDivision t line) ∧
    (¬ e.DividesByZero t → ¬ e.Overflows t →
      ∃ x i, e.eval t = .ok ⟨x, true⟩ ∧ x.truncate? = some i ∧ s.ShowsInteger t line i) ∧
    (e.Overflows t → ¬ e.DividesByZero t → 16 < e.operands.length) := by
  intro s
  have hshaped := (Reading.exists_tokens_eq hread).1
  obtain ⟨x, hx⟩ := hi.exists_eval
  have hfinite := hshaped.isFinite_iff hi hx
  have hreports : e.DividesByZero t ∨ e.Overflows t → s.ReportsDivision t line := by
    intro hspoils
    apply reportsDivision_of_spoiled hread hx
    rw [Bool.eq_false_iff, ne_eq, hfinite, ← not_or, not_not]
    exact hspoils
  have hshows : ¬ e.DividesByZero t → ¬ e.Overflows t →
      ∃ x i, e.eval t = .ok ⟨x, true⟩ ∧ x.truncate? = some i ∧ s.ShowsInteger t line i := by
    intro hdivides hrange
    obtain ⟨i, hi, hs⟩ := showsInteger_of_finite hread hx (hfinite.2 ⟨hdivides, hrange⟩)
    exact ⟨x, i, hx, hi, hs⟩
  refine ⟨⟨?_, ?_⟩, hreports, hshows, ?_⟩
  · rintro ⟨d, hd, -⟩
    by_contra hspoils
    rw [not_or] at hspoils
    obtain ⟨_, _, _, _, hs⟩ := hshows hspoils.1 hspoils.2
    rw [hs.diagnostic] at hd
    cases hd
  · intro hspoils
    obtain ⟨d, hd, hcode, -⟩ := (hreports hspoils).diagnostic
    exact ⟨d, hd, hcode⟩
  · intro hrange hdivides
    by_contra hlength
    exact hshaped.not_overflows hi hdivides (Nat.not_lt.1 hlength) hrange

/-- A quotient of two operands is shown. -/
theorem showsInteger_quotient : ∃ i, (ofLine false .empty 1 "print(7/2);").ShowsInteger .empty
    "print(7/2);" i := by
  have hread : (Reading.ofLine false 1 "print(7/2);").outcome =
      .ok (.print ⟨.ident, "print", 1, 1⟩ "print(7/2);" "7/2" (some
        (.binary ⟨.slash, "/", 1, 2⟩ (.number ⟨none, ⟨.number, "7", 1, 1⟩⟩)
          (.number ⟨none, ⟨.number, "2", 1, 3⟩⟩)))) := by
    decide +kernel
  obtain ⟨-, -, hshows, hlength⟩ :=
    reportsDivision_iff false .empty 1 _ _ _ _ _ hread (by decide +kernel)
  have hdivides : ¬ Expr.DividesByZero .empty (.binary ⟨.slash, "/", 1, 2⟩
      (.number ⟨none, ⟨.number, "7", 1, 1⟩⟩) (.number ⟨none, ⟨.number, "2", 1, 3⟩⟩)) := by
    decide +kernel
  obtain ⟨_, i, -, -, hs⟩ := hshows hdivides fun hrange =>
    absurd (hlength hrange hdivides) (by decide)
  exact ⟨i, hs⟩

/-- Seventeen times the greatest integer, multiplied. -/
def greatestProduct : Expr :=
  let factor := fun column => Expr.number ⟨none, ⟨.number, "9223372036854775807", 1, column⟩⟩
  (List.range 16).foldl (fun e i => .binary ⟨.times, "*", 1, 20 * i + 20⟩ e (factor (20 * i + 21)))
    (factor 1)

/-- The line that prints the product. -/
def greatestProductLine : Bytes :=
  utf8 "print(" ++ (utf8 "*").intercalate (List.replicate 17 "9223372036854775807") ++ utf8 ");"

/-- **Products can be reported as a division by zero** though nothing is divided. -/
theorem reportsDivision_of_product :
    (∃ keyword source body, (Reading.ofLine false 1 greatestProductLine).outcome =
      .ok (.print keyword source body (some greatestProduct))) ∧
    greatestProduct.IsIntegral .empty ∧ ¬ greatestProduct.DividesByZero .empty ∧
    (ofLine false .empty 1 greatestProductLine).ReportsDivision .empty greatestProductLine := by
  have hread : (Reading.ofLine false 1 greatestProductLine).outcome =
      .ok (.print ⟨.ident, "print", 1, 1⟩ greatestProductLine
        ((utf8 "*").intercalate (List.replicate 17 "9223372036854775807"))
        (some greatestProduct)) := by
    decide +kernel
  have hvalue : greatestProduct.eval Table.empty = .ok ⟨.infinity false, true⟩ := by
    decide +kernel
  refine ⟨⟨_, _, _, hread⟩, ?_, ?_, reportsDivision_of_spoiled hread hvalue rfl⟩
  · decide +kernel
  · decide +kernel

end LineCalc.Step
