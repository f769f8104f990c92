import LineCalc.Proofs.Expr.Shown
import LineCalc.Proofs.Line.Leniency
/-!
# Print lines

A print line shows the value of its expression, or is complained about as the expression is.  The
places of the tokens do not matter, so a line that prints a given expression is known before it is
read.

* `Expr.eval_unplaced` : an expression has the same value at every place;
* `Expr.IsWrittenAs`, `Reading.exists_print` : a line that prints the text of an expression is read
  as that expression;
* `Step.shows_of_eval`, `Step.reports_of_eval` : what a print line does, told by the value;
* `Step.shows_of_isWrittenAs`, `Step.reports_of_isWrittenAs` : the same for a line that prints an
  expression;
* `Step.shows_name` : a variable is shown as its value.
-/
namespace LineCalc

/-! ## Expressions at other places -/

/-- What a complaint says, without its place. -/
def Diagnostic.wording (d : Diagnostic) : Code × List Bytes := (d.code, d.args)

namespace Expr

/-- **An expression has the same value at every place**, and is complained about in the same
words. -/
theorem eval_unplaced (t : Table) (e : Expr) :
    (e.unplaced.eval t).mapError Diagnostic.wording = (e.eval t).mapError Diagnostic.wording := by
  induction e with
  | number l =>
      have hpoint : l.unplaced.isFractional = l.isFractional := by
        rw [Literal.isFractional, l.text_unplaced]
        rfl
      simp only [unplaced, eval, evalLiteral, l.text_unplaced, hpoint]
      split
      · rfl
      · rfl
  | ident x =>
      have hname : x.unplaced.lexeme = x.lexeme := rfl
      simp only [unplaced, eval, evalName, hname]
      split
      · rfl
      · rfl
  | unary op e ih =>
      rw [unplaced, eval, eval, Except.mapError_bind, Except.mapError_bind, ih]
      rfl
  | binary op l r ihl ihr =>
      simp only [unplaced, eval, Except.mapError_bind, ihl, ihr]
      rfl

variable {t : Table} {e e' : Expr}

/-- An expression at another place has the same value. -/
theorem eval_eq_ok_of_unplaced (h : e'.unplaced = e.unplaced) {r : Result}
    (hr : e.eval t = .ok r) : e'.eval t = .ok r := by
  rw [← Except.mapError_eq_ok_iff (f := Diagnostic.wording), ← eval_unplaced, h, eval_unplaced,
    hr]
  rfl

/-- An expression at another place is complained about in the same words. -/
theorem eval_eq_error_of_unplaced (h : e'.unplaced = e.unplaced) {d : Diagnostic}
    (hd : e.eval t = .error d) :
    ∃ d', e'.eval t = .error d' ∧ d'.wording = d.wording := by
  rw [← Except.mapError_eq_error_iff, ← eval_unplaced, h, eval_unplaced, hd]
  rfl

end Expr

/-! ## Reading a print line -/

/-- The text is a lexeme of the kind in some line. -/
def IsLexeme (k : TokenKind) (s : Bytes) : Prop :=
  ∃ (line : Int) (text : Bytes), ∃ u ∈ Token.scan line text, u.kind = k ∧ u.lexeme = s

/-- Lexemes are spelled. -/
theorem IsLexeme.spells {k : TokenKind} {s : Bytes} (h : IsLexeme k s) (hlegal : k ≠ .illegal)
    (hend : k ≠ .eof) : Layout.Spells k s := by
  obtain ⟨line, text, u, hu, rfl, rfl⟩ := h
  obtain ⟨ts, last, hscan, hlast, -, hspells⟩ := Layout.exists_scan_eq line text
  rw [hscan, List.mem_append, List.mem_singleton] at hu
  rcases hu with hu | rfl
  · exact hspells u hu hlegal
  · exact absurd hlast hend

/-- The text writes the expression, without white space. -/
structure Expr.IsWrittenAs (e : Expr) (text : Bytes) : Prop where
  shaped : e.Shaped
  nest : e.nest ≤ nestingLimit
  spells : ∀ u ∈ e.tokens, Layout.Spells u.kind u.lexeme
  text : e.tokens.flatMap Token.lexeme = text

/-- A name writes itself. -/
theorem Expr.isWrittenAs_name {name : Bytes} (h : Layout.Spells .ident name) :
    (ident ⟨.ident, name, 0, 0⟩).IsWrittenAs name := by
  refine ⟨rfl, by simp [nest, nestingLimit], ?_, by simp [tokens]⟩
  intro u hu
  rw [List.mem_singleton.1 hu]
  exact h

/-- The line that prints an expression. -/
def LineKind.printLine (expression : Bytes) : Bytes := printOpening ++ (expression ++ printClosing)

namespace Reading

variable {lenient : Bool} {number : Int} {line : Bytes} {e : Expr}

/-- What strict mode reads, lenient mode reads alike. -/
theorem outcome_of_strict {s : Statement} (h : (ofLine false number line).outcome = .ok s) :
    (ofLine lenient number line).outcome = .ok s := by
  cases lenient with
  | false => exact h
  | true =>
      rcases ofLine_true_or number line with heq | ⟨-, body, -, -, f, hf⟩
      · rw [heq]
        exact h
      · rw [hf] at h
        cases h

/-- **An expression that is printed is read as that expression**, at other places. -/
theorem exists_print {text : Bytes} (h : e.IsWrittenAs text) (lenient : Bool) (number : Int) :
    ∃ keyword source body e', (ofLine lenient number (LineKind.printLine text)).outcome =
      .ok (.print keyword source body (some e')) ∧ e'.unplaced = e.unplaced := by
  obtain ⟨hshaped, hnest, hspells, rfl⟩ := h
  have hsolid : ∀ b ∈ e.tokens.flatMap Token.lexeme, Text.isSolid b := by
    intro b hb
    obtain ⟨u, hu, hb⟩ := List.mem_flatMap.1 hb
    exact Layout.isSolid_of_spells (hshaped.ne_illegal u hu) (hspells u hu) b hb
  have hwf : (Statement.print ⟨.ident, "print", 0, 0⟩ [] [] (some e)).WellFormed :=
    ⟨rfl, rfl, e, rfl, hshaped, hnest⟩
  obtain ⟨s, hs, houtline, -, -⟩ := outcome_of_print number hwf hspells
    ⟨_, (Text.squeezes_of_isSolid hsolid).eq, rfl⟩
  obtain ⟨keyword, source, body, e', rfl, he'⟩ :
      ∃ keyword source body e', s = .print keyword source body (some e') ∧
        e'.unplaced = e.unplaced := by
    cases s with
    | declaration => cases houtline
    | assignment => cases houtline
    | print keyword source body v =>
        obtain ⟨e', rfl, he'⟩ := Option.map_eq_some_iff.1 (Statement.print.inj houtline).2.2.2
        exact ⟨keyword, source, body, e', rfl, he'⟩
  exact ⟨keyword, source, body, e', outcome_of_strict hs, he'⟩

end Reading

/-! ## Running a print line -/

namespace Step

/-- The line is repeated and shows the text as its result, and the table stays. -/
structure Shows (s : Step) (t : Table) (line text : Bytes) : Prop where
  diagnostic : s.diagnostic? = none
  output : s.output = [line, utf8 "Result: " ++ text, []]
  table : s.table = t

/-- The line is complained about with the given code. -/
def Reports (s : Step) (code : Code) : Prop := ∃ d, s.diagnostic? = some d ∧ d.code = code

variable {lenient : Bool} {t : Table} {number : Int} {line source body : Bytes} {keyword : Token}
  {e : Expr} {r : Result} {text : Bytes} {d : Diagnostic}

/-- A value that can be shown is shown. -/
theorem shows_of_eval
    (hread : (Reading.ofLine lenient number line).outcome =
      .ok (.print keyword source body (some e)))
    (hr : e.eval t = .ok r) (htext : r.toText? = some text) :
    (ofLine lenient t number line).Shows t line text := by
  have hexec : (Statement.print keyword source body (some e)).exec t =
      .ok (t, [utf8 "Result: " ++ text, []]) := by
    simp only [Statement.exec, Statement.execPrint, hr, bind, Except.bind, htext]
    rfl
  rw [ofLine_of_outcome hread, execute, hexec]
  exact ⟨rfl, rfl, rfl⟩

/-- An expression without a value is complained about. -/
theorem reports_of_eval
    (hread : (Reading.ofLine lenient number line).outcome =
      .ok (.print keyword source body (some e)))
    (hd : e.eval t = .error d) : (ofLine lenient t number line).Reports d.code := by
  have hexec : (Statement.print keyword source body (some e)).exec t = .error d := by
    simp only [Statement.exec, Statement.execPrint, hd]
    rfl
  rw [ofLine_of_outcome hread, execute, hexec]
  exact ⟨_, rfl, code_place number d⟩

/-- The value of an expression is shown on the line that prints it. -/
theorem shows_of_isWrittenAs {inner : Bytes} (h : e.IsWrittenAs inner) (hr : e.eval t = .ok r)
    (htext : r.toText? = some text) :
    (ofLine lenient t number (LineKind.printLine inner)).Shows t (LineKind.printLine inner)
      text := by
  obtain ⟨_, _, _, e', hread, he'⟩ := Reading.exists_print h lenient number
  exact shows_of_eval hread (Expr.eval_eq_ok_of_unplaced he' hr) htext

/-- An expression without a value is complained about on the line that prints it. -/
theorem reports_of_isWrittenAs {inner : Bytes} (h : e.IsWrittenAs inner)
    (hd : e.eval t = .error d) :
    (ofLine lenient t number (LineKind.printLine inner)).Reports d.code := by
  obtain ⟨_, _, _, e', hread, he'⟩ := Reading.exists_print h lenient number
  obtain ⟨d', hd', hwording⟩ := Expr.eval_eq_error_of_unplaced he' hd
  have hcode : d'.code = d.code := congrArg Prod.fst hwording
  rw [← hcode]
  exact reports_of_eval hread hd'

/-- A variable is shown as its value. -/
theorem shows_name {name : Bytes} {v : Value} (hname : Layout.Spells .ident name)
    (hv : t.find? name = some v) (htext : v.toResult.toText? = some text) :
    (ofLine lenient t number (LineKind.printLine name)).Shows t (LineKind.printLine name) text :=
  shows_of_isWrittenAs (Expr.isWrittenAs_name hname) (Expr.eval_ident_of_find? hv) htext

end Step

end LineCalc
