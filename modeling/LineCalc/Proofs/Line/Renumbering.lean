import LineCalc.Proofs.Statement.Renumbering
import LineCalc.Line.Step
import Mathlib.Data.Option.Basic
/-!
# Running a line under another number

A line is read and does the same under every number.  Only a complaint without a line would tell
the number zero from the others, and there is no such complaint.

* `Reading.outcome_onLine` : reading gives the same statement, on the line of that number;
* `Step.Renumbered` : what running a line did, told apart by numbers only;
* `Step.ofLine_renumbered` : on tables that are alike, a line does the same under two numbers.
-/
namespace LineCalc

/-! ## Reading -/

/-- The refusal on the given line. -/
def Refusal.onLine (n : Int) : Refusal → Refusal
  | form => form
  | grammar f => grammar (f.onLine n)

/-- Moving tokens to a line keeps what is recognized. -/
theorem Token.keepRecognized_onLine (n : Int) (ts : List Token) :
    keepRecognized (ts.map (onLine n)) = (keepRecognized ts).map (onLine n) := by
  rw [keepRecognized, keepRecognized, List.filter_map]
  rfl

namespace Reading

/-- A line has the same tokens under every number. -/
theorem scan_onLine (lenient : Bool) (m n : Int) (kind : LineKind) (line body : Bytes) :
    scan lenient n kind line body = (scan lenient m kind line body).map (Token.onLine n) := by
  unfold scan
  split
  · rw [Token.scan_onLine m n body]
    split
    · exact Token.keepRecognized_onLine n _
    · rfl
  · exact Token.scan_onLine m n line

/-- A line whose kind is known is read the same under every number. -/
theorem ofKind_onLine (lenient : Bool) (m n : Int) (kind : LineKind) (line body : Bytes) :
    Except.Matches (fun f f' => f' = f.onLine n) (fun s s' => s' = s.onLine n)
      (ofKind lenient m kind line body).outcome (ofKind lenient n kind line body).outcome := by
  simp only [ofKind, scan_onLine lenient m n]
  refine (Statement.parse_onLine m n kind line body _).mapError ?_
  rintro f _ rfl
  rfl

/-- **A line is read the same under every number.** -/
theorem outcome_onLine (lenient : Bool) (m n : Int) (line : Bytes) :
    Except.Matches (fun f f' => f' = f.onLine n) (fun s s' => s' = s.onLine n)
      (ofLine lenient m line).outcome (ofLine lenient n line).outcome := by
  unfold ofLine
  split
  · split
    · exact ofKind_onLine lenient m n _ _ _
    · exact .error rfl
  · exact ofKind_onLine lenient m n _ _ _

/-- The kind and the text of the expression do not depend on the number at all. -/
theorem body_ofLine (lenient : Bool) (m n : Int) (line : Bytes) :
    (ofLine lenient n line).kind = (ofLine lenient m line).kind ∧
      (ofLine lenient n line).body = (ofLine lenient m line).body := by
  unfold ofLine
  split
  · split
    · exact ⟨rfl, rfl⟩
    · exact ⟨rfl, rfl⟩
  · exact ⟨rfl, rfl⟩

/-- A line that is not read is complained about alike. -/
theorem diagnostic?_renumbered (lenient : Bool) (m n : Int) (line : Bytes) :
    Option.Rel (Diagnostic.Renumbered m n) ((ofLine lenient m line).diagnostic? m line)
      ((ofLine lenient n line).diagnostic? n line) := by
  obtain ⟨hkind, hbody⟩ := body_ofLine lenient m n line
  have houtcome := outcome_onLine lenient m n line
  have hwhole : ∀ code args, Diagnostic.Renumbered m n
      ⟨code, .wholeLine m, args⟩ ⟨code, .wholeLine n, args⟩ := fun code args =>
    Diagnostic.renumbered m n code (.wholeLine m) args
  unfold diagnostic?
  rw [hkind, hbody]
  generalize (ofLine lenient m line).outcome = x at houtcome
  generalize (ofLine lenient n line).outcome = x' at houtcome
  cases houtcome with
  | ok h => exact .none
  | @error f f' h =>
      obtain rfl : f' = f.onLine n := h
      cases f with
      | form => exact .some (hwhole _ _)
      | grammar f =>
          simp only [Refusal.onLine, Failure.message_onLine]
          cases (ofLine lenient m line).kind with
          | declaration => exact .some (hwhole _ _)
          | assignment => exact .some (hwhole _ _)
          | print => exact .some (hwhole _ _)

end Reading

/-! ## Running -/

/-- Both lines did the same, one under the number `m`, the other under `n`: their statements differ
in the line of their tokens, their complaints and tables in numbers of lines. -/
structure Step.Renumbered (m n : Int) (s s' : Step) : Prop where
  kind : s'.kind = s.kind
  statement : s'.statement? = s.statement?.map (Statement.onLine n)
  output : s'.output = s.output
  diagnostic : Option.Rel (Diagnostic.Renumbered m n) s.diagnostic? s'.diagnostic?
  table : s.table.Alike s'.table

/-- A complaint about a line is in its place. -/
theorem Diagnostic.Renumbered.place {m n : Int} (hm : m ≠ 0) (hn : n ≠ 0) {d d' : Diagnostic}
    (h : Renumbered m n d d') : Renumbered m n (Step.place m d) (Step.place n d') := by
  have hline : d.token.line ≠ 0 := by
    rw [h.line]
    exact hm
  have hline' : d'.token.line ≠ 0 := by
    rw [h.token]
    exact hn
  rw [Step.place, Step.place, if_neg hline, if_neg hline']
  exact h

namespace Step

variable {t t' : Table} {m n : Int}

/-- A statement that was read is executed alike under two numbers. -/
theorem execute_renumbered (hm : m ≠ 0) (hn : n ≠ 0) (h : t.Alike t') (s : Statement) :
    (execute t' n (s.onLine n)).1 = (execute t m (s.onLine m)).1 ∧
      Option.Rel (Diagnostic.Renumbered m n) (execute t m (s.onLine m)).2.1
        (execute t' n (s.onLine n)).2.1 ∧
      (execute t m (s.onLine m)).2.2.Alike (execute t' n (s.onLine n)).2.2 := by
  have hexec := Statement.exec_renumbered h m n s
  unfold execute
  generalize (s.onLine m).exec t = x at hexec
  generalize (s.onLine n).exec t' = x' at hexec
  cases hexec with
  | error hd => exact ⟨rfl, .some (hd.place hm hn), h⟩
  | ok hr => exact ⟨hr.2, .none, hr.1⟩

/-- **A line does the same under two numbers**, on tables that are alike. -/
theorem ofLine_renumbered (lenient : Bool) (hm : m ≠ 0) (hn : n ≠ 0) (h : t.Alike t')
    (line : Bytes) :
    Renumbered m n (ofLine lenient t m line) (ofLine lenient t' n line) := by
  have hkind := (Reading.body_ofLine lenient m n line).1
  have hdiagnostic := Reading.diagnostic?_renumbered lenient m n line
  -- both statements are the one that is read under the number zero, on their lines
  have hreads := Reading.outcome_onLine lenient 0 m line
  have hreads' := Reading.outcome_onLine lenient 0 n line
  simp only [ofLine, Reading.statement?, hkind]
  generalize (Reading.ofLine lenient 0 line).outcome = x at hreads hreads'
  generalize (Reading.ofLine lenient m line).outcome = y at hreads
  generalize (Reading.ofLine lenient n line).outcome = y' at hreads'
  cases hreads with
  | error hf =>
      cases hreads' with
      | error hf' => exact ⟨rfl, rfl, rfl, hdiagnostic, h⟩
  | @ok s sm hs =>
      cases hreads' with
      | @ok s sn hs' =>
          obtain rfl : sm = s.onLine m := hs
          obtain rfl : sn = s.onLine n := hs'
          obtain ⟨houtput, hcomplaint, htable⟩ := execute_renumbered hm hn h s
          refine ⟨rfl, ?_, ?_, hcomplaint, htable⟩
          · exact congrArg some (Statement.onLine_onLine m n s).symm
          · exact congrArg (Reading.echo _ line ++ ·) houtput

end Step

end LineCalc
