import LineCalc.Proofs.Line.Print
import LineCalc.Proofs.Text.Squeeze
/-!
# White space in print expressions

White space of Unicode may stand anywhere in the expression of a print line, between the bytes of a
number as well as between tokens.  All that it changes is the line that is repeated.

* `Reading.ofLine_printLine` : a print line is read as its expression without white space;
* `Step.ofLine_printLine` : lines with the same expression up to white space do the same;
* `Step.ofLine_of_withoutWhite` : the same said on texts of characters.
-/
namespace LineCalc

/-! ## Statements of another line -/

namespace Statement

/-- The statement as that of another line.  Only a print statement keeps its line. -/
def ofSource (source : Bytes) : Statement → Statement
  | print keyword _ body value => print keyword source body value
  | s => s

/-- The line that a statement keeps does not matter when it is executed. -/
theorem exec_ofSource (source : Bytes) (t : Table) (s : Statement) :
    (s.ofSource source).exec t = s.exec t := by
  cases s with
  | declaration type name value => rfl
  | assignment name value => rfl
  | print keyword line body value => cases value <;> rfl

/-- The tokens of a print line tell all of its statement but its line. -/
theorem parse_print_source (number : Int) (line source body : Bytes) (ts : List Token) :
    parse number .print source body ts =
      (parse number .print line body ts).map (ofSource source) := by
  simp only [parse]
  cases Expr.parse (ts.takeWhile (·.kind != .eof)) with
  | error f => rfl
  | ok e => rfl

end Statement

/-! ## Lines with the same expression -/

namespace Reading

/-- A print line is read as its expression without white space. -/
theorem ofLine_printLine (lenient : Bool) (number : Int) (inner : Bytes) :
    ofLine lenient number (LineKind.printLine inner) =
      ofKind lenient number .print (LineKind.printLine inner) (Text.squeeze inner) := by
  have hkind : LineKind.ofLine (LineKind.printLine inner) = .print :=
    LineKind.ofLine_printOpening_append _
  have hbody : LineKind.printBody? (LineKind.printLine inner) = some (Text.squeeze inner) :=
    LineKind.printBody?_eq_some_iff.2 ⟨inner, rfl, rfl⟩
  rw [ofLine, hkind]
  simp only [hbody]

/-- The tokens of a print line are those of its expression. -/
theorem scan_print_source (lenient : Bool) (number : Int) (line source body : Bytes) :
    scan lenient number .print source body = scan lenient number .print line body := rfl

/-- The readings of two print lines with the same expression differ in the line that the statement
keeps. -/
theorem outcome_ofKind_print_source (lenient : Bool) (number : Int) (line source body : Bytes) :
    (ofKind lenient number .print source body).outcome =
      (ofKind lenient number .print line body).outcome.map (Statement.ofSource source) := by
  simp only [ofKind, Statement.parse_print_source number line source,
    scan_print_source lenient number line source]
  cases Statement.parse number .print line body (scan lenient number .print line body) with
  | error f => rfl
  | ok s => rfl

/-- The form of a print line with an expression is right, so at most its tokens are complained
about. -/
theorem ofKind_outcome_ne_form (lenient : Bool) (number : Int) (kind : LineKind)
    (line body : Bytes) : (ofKind lenient number kind line body).outcome ≠ .error .form := by
  rw [ofKind]
  cases Statement.parse number kind line body (scan lenient number kind line body) <;>
    simp [Except.mapError]

end Reading

namespace Step

variable (lenient : Bool) (t : Table) (number : Int)

/-- **Print lines with the same expression up to white space do the same.**  They differ in the line
that they repeat and that the statement keeps. -/
theorem ofLine_printLine {inner inner' : Bytes} (h : Text.squeeze inner' = Text.squeeze inner) :
    (ofLine lenient t number (LineKind.printLine inner')).statement? =
      (ofLine lenient t number (LineKind.printLine inner)).statement?.map
        (Statement.ofSource (LineKind.printLine inner')) ∧
    (ofLine lenient t number (LineKind.printLine inner')).diagnostic? =
      (ofLine lenient t number (LineKind.printLine inner)).diagnostic? ∧
    (ofLine lenient t number (LineKind.printLine inner')).table =
      (ofLine lenient t number (LineKind.printLine inner)).table ∧
    ∃ out, (ofLine lenient t number (LineKind.printLine inner)).output =
        LineKind.printLine inner :: out ∧
      (ofLine lenient t number (LineKind.printLine inner')).output =
        LineKind.printLine inner' :: out := by
  have houtcome := Reading.outcome_ofKind_print_source lenient number (LineKind.printLine inner)
    (LineKind.printLine inner') (Text.squeeze inner)
  simp only [ofLine, Reading.ofLine_printLine, h, Reading.statement?, houtcome]
  cases hread : (Reading.ofKind lenient number .print (LineKind.printLine inner)
      (Text.squeeze inner)).outcome with
  | error refusal =>
      cases refusal with
      | form => exact absurd hread (Reading.ofKind_outcome_ne_form _ _ _ _ _)
      | grammar f =>
          rw [hread] at houtcome
          simp only [Except.map, Except.toOption, Reading.diagnostic?, hread, houtcome]
          exact ⟨rfl, rfl, trivial, [], rfl, rfl⟩
  | ok s =>
      simp only [Except.map, Except.toOption, execute, Statement.exec_ofSource]
      exact ⟨rfl, trivial, trivial, _, rfl, rfl⟩

/-- A text in brackets is printed as its bytes are. -/
theorem utf8_printLine (i : String) :
    utf8 ("print(" ++ i ++ ");") = LineKind.printLine (utf8 i) := by
  simp only [LineKind.printLine, Text.utf8_append, List.append_assoc]
  rfl

/-- **White space in a print expression never matters.**  If two texts are the same without their
white-space characters, the lines that print them have that as their expression, the same tokens
and, but for the line that it keeps, the same statement.  They are complained about alike, leave the
same table behind and write the same after the line itself. -/
theorem ofLine_of_withoutWhite (i₁ i₂ : String)
    (h : Text.withoutWhite i₁ = Text.withoutWhite i₂) :
    let line₁ := utf8 ("print(" ++ i₁ ++ ");")
    let line₂ := utf8 ("print(" ++ i₂ ++ ");")
    let r₁ := Reading.ofLine lenient number line₁
    let r₂ := Reading.ofLine lenient number line₂
    let s₁ := ofLine lenient t number line₁
    let s₂ := ofLine lenient t number line₂
    (r₁.body = utf8 (Text.withoutWhite i₁) ∧ r₂.body = r₁.body) ∧
    r₂.tokens = r₁.tokens ∧
    s₂.statement? = s₁.statement?.map (Statement.ofSource line₂) ∧
    s₂.diagnostic? = s₁.diagnostic? ∧
    s₂.table = s₁.table ∧
    ∃ out, s₁.output = line₁ :: out ∧ s₂.output = line₂ :: out := by
  have hsqueeze : Text.squeeze (utf8 i₂) = Text.squeeze (utf8 i₁) := by
    rw [Text.squeeze_utf8, Text.squeeze_utf8, h]
  simp only [utf8_printLine]
  refine ⟨?_, ?_, ofLine_printLine lenient t number hsqueeze⟩
  · rw [Reading.ofLine_printLine, Reading.ofLine_printLine, hsqueeze]
    exact ⟨Text.squeeze_utf8 i₁, rfl⟩
  · rw [Reading.ofLine_printLine, Reading.ofLine_printLine, hsqueeze]
    rfl

/-- A no-break space within a number and an ideographic one in front of it leave the same sum. -/
theorem ofLine_of_withoutWhite_sum :
    ∃ out,
      (ofLine false ⟨[], by simp⟩ 1 (utf8 ("print(" ++ "1\u00a00 +\t2" ++ ");"))).output =
        utf8 ("print(" ++ "1\u00a00 +\t2" ++ ");") :: out ∧
      (ofLine false ⟨[], by simp⟩ 1 (utf8 ("print(" ++ "\u300010+2" ++ ");"))).output =
        utf8 ("print(" ++ "\u300010+2" ++ ");") :: out :=
  (ofLine_of_withoutWhite false ⟨[], by simp⟩ 1 "1\u00a00 +\t2" "\u300010+2"
    (by decide +kernel)).2.2.2.2.2

end Step

end LineCalc
