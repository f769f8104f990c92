import LineCalc.Proofs.Session.Visits
/-!
# How the lines of a run end

A run counts one error for every line that is refused or fails.

* `Context.isFaulty_outcome` : such a line is one that something was wrong with;
* `Session.lines_end_once` : every line ends in one way, and a run counts the faulty ones.
-/
namespace LineCalc

/-- The line was refused, or failed after it was repeated. -/
def Step.Outcome.isFaulty : Outcome → Bool
  | .refused | .failed => true
  | .stored | .shown => false

/-- A line is faulty just if something was wrong with it. -/
theorem Context.isFaulty_outcome (c : Context) : c.outcome.isFaulty = c.failed := by
  unfold outcome
  split
  · split
    · next h => exact h.symm
    · next h => exact (Bool.eq_false_iff.2 h).symm
  · split
    · next h => exact h.symm
    · next h => exact (Bool.eq_false_iff.2 h).symm

namespace Session

/-- There is one complaint for every faulty line. -/
theorem length_complaints (vs : List Visit) :
    (vs.flatMap fun v => v.step.diagnostic?.toList).length =
      vs.countP (·.context.outcome.isFaulty) := by
  induction vs with
  | nil => rfl
  | cons v vs ih =>
      rw [List.flatMap_cons, List.length_append, ih, List.countP_cons, Context.isFaulty_outcome,
        Context.failed, v.context_shows.errors]
      cases v.step.diagnostic? with
      | none => simp
      | some d => simp [Nat.add_comm]

/-- **Every line ends once.**

* After the first three stages there is a statement and no complaint, or no statement and one
  complaint, and nothing was stored.
* After all four, whatever the store, the line has stored a value, was refused, has failed or was
  shown, and just one of these.
* On a store in step they do what running the line does on its table.
* A run leaves what the last line that it executes leaves, and counts as many errors as it executes
  lines that are refused or fail. -/
theorem lines_end_once :
    (∀ (σ : Store) (lenient : Bool) (number : Int) (line : Bytes),
      let c := (Context.start σ lenient number line).classify.scan.parse
      c.store = σ ∧ (((∃ s, c.statement = some s) ∧ c.errors = []) ∨
        (c.statement = none ∧ c.Complains))) ∧
    (∀ (σ : Store) (lenient : Bool) (number : Int) (line : Bytes) (o : Step.Outcome),
      let c := (Context.start σ lenient number line).run
      c.Ends σ line o ↔ o = c.outcome) ∧
    (∀ (σ : Store) (h : σ.InStep) (lenient : Bool) (number : Int) (line : Bytes),
      let c := (Context.start σ lenient number line).run
      c.Shows (Step.ofLine lenient h.table number line)) ∧
    ∀ (s : Session) (text : Bytes) (isCancelled : Bool),
      let executed := s.announce.executed isCancelled 1 (programLines text)
      (s.run text isCancelled).1 =
          executed.foldl (fun _ v => v.session.runLine v.number v.line) s.announce ∧
        (s.run text isCancelled).1.errors =
          s.errors + executed.countP (·.context.outcome.isFaulty) := by
  refine ⟨Context.reads_or_complains, Context.ends_iff, fun σ h => Context.run_shows h, ?_⟩
  intro s text isCancelled executed
  obtain ⟨hrun, herrors⟩ := runLines_executed isCancelled s.announce 1 (programLines text)
  rw [length_complaints, s.announce_keeps.errors] at herrors
  exact ⟨hrun, herrors⟩

/-- A name that is not there is printed: the line is read, repeated and complained about, on the
store without variables as on the table without variables. -/
theorem lines_end_once_print :
    let line := utf8 "print(x);"
    let c := (Context.start .empty false 1 line).run
    c.Ends .empty line .failed ∧ c.errors.map Diagnostic.code = [.undeclared] ∧
      c.Shows (Step.ofLine false Store.InStep.empty.table 1 line) := by
  intro line c
  obtain ⟨-, hends, hshows, -⟩ := lines_end_once
  have houtcome : Step.Outcome.failed = c.outcome := by decide +kernel
  exact ⟨(hends .empty false 1 line .failed).2 houtcome, by decide +kernel,
    hshows .empty .empty false 1 line⟩

end Session

end LineCalc
