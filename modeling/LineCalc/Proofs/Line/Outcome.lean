import LineCalc.Proofs.Line.Reading
import LineCalc.Proofs.Statement.Effect
import LineCalc.Line.Step
/-!
# How a line ends

A line stores a value, is refused, fails after it was repeated, or shows a result, and never two of
these.

* `LineKind.complaints` : what can be wrong with a line of a kind;
* `Reading.reads_or_complains` : a line is read, or there is one complaint;
* `Step.Ends`, `Step.Ends.eq_outcome` : the ways in which a line can end, which are told apart.
-/
namespace LineCalc

/-! ## Complaints -/

/-- The codes of the complaints about lines of a kind. -/
def LineKind.complaints : LineKind → List Code
  | declaration => [.declaration, .literal, .mismatch]
  | assignment => [.assignment, .undeclared, .literal, .mismatch]
  | print => [.printForm, .expression, .undeclared, .literal, .arithmetic]

/-- No complaint about a line stops a run. -/
theorem LineKind.isFatal_of_mem_complaints (k : LineKind) :
    ∀ c ∈ k.complaints, c.isFatal = false := by
  cases k <;> decide

namespace Expr

/-- An expression fails where a variable is not there or a literal is no value. -/
theorem code_of_eval {scope : Scope} {e : Expr} {d : Diagnostic} (h : e.eval scope = .error d) :
    d.code = .undeclared ∨ d.code = .literal := by
  induction e with
  | number l =>
      simp only [eval, evalLiteral] at h
      split at h
      · cases h
      · cases h
        exact .inr rfl
  | ident name =>
      simp only [eval, evalName] at h
      split at h
      · cases h
      · cases h
        exact .inl rfl
  | unary op e ih =>
      rcases Except.bind_eq_error_iff.1 h with h | ⟨r, -, h⟩
      · exact ih h
      · cases h
  | binary op l r ihl ihr =>
      rcases Except.bind_eq_error_iff.1 h with h | ⟨x, -, h⟩
      · exact ihl h
      · rcases Except.bind_eq_error_iff.1 h with h | ⟨y, -, h⟩
        · exact ihr h
        · cases h

end Expr

namespace Statement

/-- A literal fails where it is no value. -/
theorem code_of_literalValue {k : Kind} {l : Literal} {d : Diagnostic}
    (h : literalValue k l = .error d) :
    d.code = .literal := by
  unfold literalValue at h
  split at h
  · cases h
  · cases h
    rfl

/-- What a print writes. -/
theorem output_of_execPrint {scope : Scope} {keyword : Token} {e : Expr} {out : List Bytes}
    (h : execPrint scope keyword e = .ok out) : ∃ v, out = [utf8 "Result: " ++ v, []] := by
  obtain ⟨r, -, h⟩ := Except.bind_eq_ok_iff.1 h
  split at h
  · next v hv =>
      cases h
      exact ⟨v, rfl⟩
  · cases h

end Statement

/-! ## Reading -/

namespace Reading

/-- A line is read as what it is classified. -/
theorem kind_ofLine (lenient : Bool) (number : Int) (line : Bytes) :
    (ofLine lenient number line).kind = LineKind.ofLine line := by
  unfold ofLine
  split
  · next h =>
      split
      · exact h.symm
      · exact h.symm
  · rfl

/-- The statement of a line is what was read. -/
theorem statement?_eq_some_iff {r : Reading} {s : Statement} :
    r.statement? = some s ↔ r.outcome = .ok s := by
  unfold statement?
  cases r.outcome with
  | error f => simp [Except.toOption]
  | ok s' => simp [Except.toOption]

/-- Only a print line has a form besides its grammar. -/
theorem kind_of_form {lenient : Bool} {number : Int} {line : Bytes}
    (h : (ofLine lenient number line).outcome = .error .form) : LineKind.ofLine line = .print := by
  unfold ofLine at h
  split at h
  · assumption
  · obtain ⟨f, -, hf⟩ := Except.mapError_eq_error_iff.1 h
    cases hf

/-- The statement of a line is of its kind, and a print has an expression. -/
theorem statement_of_outcome {lenient : Bool} {number : Int} {line : Bytes} {s : Statement}
    (h : (ofLine lenient number line).outcome = .ok s) :
    s.kind = LineKind.ofLine line ∧
      (s.target? = none → ∃ body e, s = .printing number line body e) := by
  rw [outcome_eq_ok_iff] at h
  split at h
  · next hkind =>
      obtain ⟨type, name, value, rfl, -⟩ := h
      exact ⟨hkind.symm, fun h => by cases h⟩
  · next hkind =>
      obtain ⟨name, value, rfl, -⟩ := h
      exact ⟨hkind.symm, fun h => by cases h⟩
  · next hkind =>
      obtain ⟨body, e, -, rfl, -⟩ := h
      exact ⟨hkind.symm, fun _ => ⟨body, e, rfl⟩⟩

/-- **A line is read, or there is one complaint**, about a line of its kind. -/
theorem reads_or_complains (lenient : Bool) (number : Int) (line : Bytes) :
    let r := ofLine lenient number line
    ((∃ s, r.statement? = some s) ∧ r.diagnostic? number line = none) ∨
    (r.statement? = none ∧
      ∃ d, r.diagnostic? number line = some d ∧ d.code ∈ r.kind.complaints) := by
  intro r
  cases h : r.outcome with
  | ok s => exact .inl ⟨⟨s, by rw [statement?, h]; rfl⟩, by rw [diagnostic?, h]⟩
  | error f =>
      refine .inr ⟨by rw [statement?, h]; rfl, ?_⟩
      rw [diagnostic?, h]
      cases f with
      | form =>
          have hkind : r.kind = .print := (kind_ofLine lenient number line).trans (kind_of_form h)
          exact ⟨_, rfl, by simp [hkind, LineKind.complaints]⟩
      | grammar f =>
          cases hkind : r.kind with
          | declaration => exact ⟨_, rfl, List.mem_cons_self⟩
          | assignment => exact ⟨_, rfl, List.mem_cons_self⟩
          | print => exact ⟨_, rfl, List.mem_cons_of_mem _ List.mem_cons_self⟩

end Reading

/-! ## Running -/

/-- The ways in which a line can end. -/
inductive Step.Outcome where
  /-- A declaration or an assignment has changed its variable. -/
  | stored
  /-- A declaration or an assignment was complained about. -/
  | refused
  /-- A print line was repeated and complained about. -/
  | failed
  /-- A print line was repeated and its result was shown. -/
  | shown
  deriving DecidableEq

namespace Step

/-- There is one complaint, which is about a line of the kind and does not stop the run. -/
def Complains (s : Step) : Prop :=
  ∃ d, s.diagnostic? = some d ∧ d.code ∈ s.kind.complaints ∧ d.code.isFatal = false

/-- What a line leaves, run on the table `t`, in each of the ways in which it can end. -/
def Ends (t : Table) (line : Bytes) (s : Step) : Outcome → Prop
  | .stored => s.kind ≠ .print ∧ s.output = [] ∧ s.diagnostic? = none ∧
      ∃ st v c, s.statement? = some st ∧ st.Stores t v ∧ st.call? v = some c ∧
        t.call c = .ok s.table
  | .refused => s.kind ≠ .print ∧ s.output = [] ∧ s.Complains ∧ s.table = t
  | .failed => s.kind = .print ∧ s.output = [line] ∧ s.Complains ∧ s.table = t
  | .shown => s.kind = .print ∧ (∃ v, s.output = [line, utf8 "Result: " ++ v, []]) ∧
      s.diagnostic? = none ∧ s.table = t

/-- The way in which a line ends, told by its kind and whether there is a complaint. -/
def outcome (s : Step) : Outcome :=
  if s.kind = .print then if s.diagnostic?.isSome then .failed else .shown
  else if s.diagnostic?.isSome then .refused else .stored

/-- A line ends in no other way than it is told. -/
theorem Ends.eq_outcome {t : Table} {line : Bytes} {s : Step} {o : Outcome} (h : s.Ends t line o) :
    o = s.outcome := by
  unfold outcome
  cases o with
  | stored =>
      obtain ⟨hkind, -, hnone, -⟩ := h
      simp [hkind, hnone]
  | refused =>
      obtain ⟨hkind, -, ⟨d, hd, -⟩, -⟩ := h
      simp [hkind, hd]
  | failed =>
      obtain ⟨hkind, -, ⟨d, hd, -⟩, -⟩ := h
      simp [hkind, hd]
  | shown =>
      obtain ⟨hkind, -, hnone, -⟩ := h
      simp [hkind, hnone]

/-- Placing a complaint keeps its code. -/
theorem code_place (number : Int) (d : Diagnostic) : (place number d).code = d.code := by
  unfold place
  split <;> rfl

/-- A line is run as what it is classified. -/
theorem kind_ofLine (lenient : Bool) (t : Table) (number : Int) (line : Bytes) :
    (ofLine lenient t number line).kind = LineKind.ofLine line := by
  rw [← Reading.kind_ofLine lenient number line]
  unfold ofLine
  cases h : (Reading.ofLine lenient number line).statement? with
  | none => simp [h]
  | some st => simp [h]

/-- Running a line reads it first. -/
theorem statement?_ofLine (lenient : Bool) (t : Table) (number : Int) (line : Bytes) :
    (ofLine lenient t number line).statement? =
      (Reading.ofLine lenient number line).statement? := by
  unfold ofLine
  cases h : (Reading.ofLine lenient number line).statement? with
  | none => simp [h]
  | some st => simp [h]

/-- A line that is read is executed. -/
theorem ofLine_of_outcome {lenient : Bool} {t : Table} {number : Int} {line : Bytes}
    {st : Statement} (h : (Reading.ofLine lenient number line).outcome = .ok st) :
    ofLine lenient t number line = ⟨st.kind, some st,
      Reading.echo st.kind line ++ (execute t number st).1, (execute t number st).2.1,
      (execute t number st).2.2⟩ := by
  have hkind := (Reading.statement_of_outcome h).1
  rw [← Reading.kind_ofLine lenient number line] at hkind
  rw [ofLine, Reading.statement?_eq_some_iff.2 h, ← hkind]

end Step

end LineCalc
