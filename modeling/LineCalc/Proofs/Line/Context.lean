import LineCalc.Proofs.Line.Outcome
import LineCalc.Proofs.Statement.Recorder
import LineCalc.Proofs.Statement.Run
import LineCalc.Line.Context
/-!
# What the stages of a line leave

The first three stages read the line, and the last one carries out its statement.  Each of them
leaves the context alone once something was wrong, so there is a statement or one complaint after
the first three, and at most one complaint after all four.

* `Context.front_eq`, `Context.run_eq` : what is left after three stages and after all of them;
* `Context.run_shows` : all stages do on a store what running the line does on its table;
* `Context.reads_or_complains` : after the first three there is a statement or one complaint;
* `Context.ends_iff` : every line ends in exactly one way;
* `Step.exists_ends` : so it does on every table.
-/
namespace LineCalc

namespace Context

/-! ## The first three stages -/

/-- The context of a line that was read. -/
def ofReading (σ : Store) (lenient : Bool) (number : Int) (line : Bytes) (r : Reading) :
    Context where
  number := number
  line := line
  lenient := lenient
  kind := some r.kind
  body := r.body
  tokens :=
    match r.outcome with
    | .error .form => none
    | _ => some r.tokens
  statement := r.statement?
  store := σ
  output := Reading.echo r.kind line
  errors := (r.diagnostic? number line).toList

/-- Classifying a line that is no print line. -/
theorem classify_of_ne_print {c : Context} (h : LineKind.ofLine c.line ≠ .print) :
    c.classify = { c with kind := some (LineKind.ofLine c.line) } := if_pos h

/-- Classifying a print line: it is repeated, and complained about if it does not have the form of
one. -/
theorem classify_of_print {c : Context} (h : LineKind.ofLine c.line = .print) :
    c.classify =
      match LineKind.printBody? c.line with
      | none => { c with
          kind := some .print
          output := c.output ++ [c.line]
          errors := c.errors ++ [⟨.printForm, .wholeLine c.number, [c.line]⟩] }
      | some body => { c with
          kind := some .print
          output := c.output ++ [c.line]
          body := body } := by
  rw [classify, if_neg (not_not.2 h), h]
  rfl

/-- Tokens are parsed if nothing was wrong before. -/
theorem parse_eq {c : Context} {kind : LineKind} {ts : List Token} (herrors : c.errors = [])
    (hkind : c.kind = some kind) (hts : c.tokens = some ts) :
    c.parse =
      match Statement.parse c.number kind c.line c.body ts with
      | .ok s => { c with statement := some s }
      | .error f => { c with statement := none, errors := [c.syntaxError kind f.message] } := by
  have hfailed : c.failed = false := by simp [failed, herrors]
  rw [parse, hfailed]
  simp only [hts, hkind, Recorder.on_statement]
  cases Statement.parse c.number kind c.line c.body ts with
  | ok s => rfl
  | error f => simp [addError, herrors, syntaxError]

/-- The context of a line that is cut into tokens and to be parsed. -/
def scanned (σ : Store) (lenient : Bool) (number : Int) (kind : LineKind) (line body : Bytes) :
    Context :=
  ⟨number, line, lenient, some kind, body, some (Reading.scan lenient number kind line body), none,
    σ, Reading.echo kind line, []⟩

/-- Parsing reads a line of a kind. -/
theorem parse_scanned (σ : Store) (lenient : Bool) (number : Int) (kind : LineKind)
    (line body : Bytes) : (scanned σ lenient number kind line body).parse =
      ofReading σ lenient number line (Reading.ofKind lenient number kind line body) := by
  rw [parse_eq rfl rfl rfl]
  unfold Reading.ofKind scanned
  dsimp only
  cases Statement.parse number kind line body (Reading.scan lenient number kind line body) with
  | ok s => rfl
  | error f => cases kind <;> rfl

/-- **The first three stages read the line.** -/
theorem front_eq (σ : Store) (lenient : Bool) (number : Int) (line : Bytes) :
    (start σ lenient number line).classify.scan.parse =
      ofReading σ lenient number line (Reading.ofLine lenient number line) := by
  have hread : ∀ kind body, (start σ lenient number line).classify.scan =
      scanned σ lenient number kind line body →
      Reading.ofLine lenient number line = Reading.ofKind lenient number kind line body →
      (start σ lenient number line).classify.scan.parse =
        ofReading σ lenient number line (Reading.ofLine lenient number line) := by
    intro kind body hscan hofLine
    rw [hscan, parse_scanned, hofLine]
  have hline : (start σ lenient number line).line = line := rfl
  cases hkind : LineKind.ofLine line with
  | declaration =>
      apply hread .declaration []
      · rw [classify_of_ne_print (by simp [hline, hkind]), hline, hkind]
        rfl
      · simp only [Reading.ofLine, hkind]
  | assignment =>
      apply hread .assignment []
      · rw [classify_of_ne_print (by simp [hline, hkind]), hline, hkind]
        rfl
      · simp only [Reading.ofLine, hkind]
  | print =>
      have hclassify := classify_of_print (c := start σ lenient number line) hkind
      cases hbody : LineKind.printBody? line with
      | none =>
          -- the complaint is there, so the two stages after it do nothing
          rw [hline, hbody] at hclassify
          simp only [Reading.ofLine, hkind, hbody, hclassify]
          rfl
      | some body =>
          apply hread .print body
          · rw [hclassify, hline, hbody]
            rfl
          · simp only [Reading.ofLine, hkind, hbody]

/-! ## All stages -/

/-- A line without a statement is passed on. -/
theorem evaluate_of_none {c : Context} (h : c.statement = none) : c.evaluate = c := by
  simp only [evaluate, h]

/-- The statement of a line is carried out if nothing was wrong before. -/
theorem evaluate_of_some {c : Context} {s : Statement} (hs : c.statement = some s)
    (herrors : c.errors = []) : c.evaluate = c.carryOut s := by
  have hfailed : c.failed = false := by simp [failed, herrors]
  simp [evaluate, hs, hfailed]

/-- A statement that fails is complained about. -/
theorem carryOut_of_error {c : Context} {s : Statement} {d : Diagnostic}
    (h : s.run.on c.store = (.error d, c.store)) :
    c.carryOut s = { c with errors := c.errors ++ [Step.place c.number d] } := by
  rw [carryOut, h]
  rfl

/-- A statement that succeeds writes its lines. -/
theorem carryOut_of_ok {c : Context} {s : Statement} {out : List Bytes} {σ : Store}
    (h : s.run.on c.store = (.ok out, σ)) :
    c.carryOut s = { c with store := σ, output := c.output ++ out } := by
  rw [carryOut, h]
  exact foldl_emit out _

/-- **What all stages leave**: the line as it is read, with its statement, if it has one, carried
out. -/
theorem run_eq (σ : Store) (lenient : Bool) (number : Int) (line : Bytes) :
    let c := ofReading σ lenient number line (Reading.ofLine lenient number line)
    (start σ lenient number line).run =
      match (Reading.ofLine lenient number line).statement? with
      | none => c
      | some s => c.carryOut s := by
  intro c
  have hrun : (start σ lenient number line).run = c.evaluate :=
    congrArg evaluate (front_eq σ lenient number line)
  rw [hrun]
  cases hs : (Reading.ofLine lenient number line).statement? with
  | none => exact evaluate_of_none hs
  | some s =>
      have hnone : (Reading.ofLine lenient number line).diagnostic? number line = none := by
        rw [Reading.diagnostic?, Reading.statement?_eq_some_iff.1 hs]
      exact evaluate_of_some hs (by simp only [c, ofReading, hnone, Option.toList_none])

/-- What is left of a line shows what running the line on a table does. -/
structure Shows (c : Context) (step : Step) : Prop where
  kind : c.kind = some step.kind
  statement : c.statement = step.statement?
  output : c.output = step.output
  errors : c.errors = step.diagnostic?.toList
  table : ∃ h : c.store.InStep, h.table = step.table

/-- **The stages run the line on the table of the store.** -/
theorem run_shows {σ : Store} (h : σ.InStep) (lenient : Bool) (number : Int) (line : Bytes) :
    (start σ lenient number line).run.Shows (Step.ofLine lenient h.table number line) := by
  rw [run_eq, Step.ofLine]
  generalize Reading.ofLine lenient number line = r
  cases hs : r.statement? with
  | none => exact ⟨rfl, hs, rfl, rfl, h, rfl⟩
  | some s =>
      have hnone : r.diagnostic? number line = none := by
        rw [Reading.diagnostic?, Reading.statement?_eq_some_iff.1 hs]
      have hmirrors := Statement.mirrors_run h s
      dsimp only
      rw [Step.execute]
      cases hexec : s.exec h.table with
      | error d =>
          rw [hexec] at hmirrors
          rw [carryOut_of_error hmirrors.of_error]
          refine ⟨rfl, hs, (List.append_nil _).symm, ?_, h, rfl⟩
          simp [ofReading, hnone]
      | ok p =>
          obtain ⟨t, out⟩ := p
          rw [hexec] at hmirrors
          obtain ⟨h', rfl, hok⟩ := hmirrors.of_ok
          rw [carryOut_of_ok (Prod.ext hok rfl)]
          refine ⟨rfl, hs, rfl, ?_, h', rfl⟩
          simp [ofReading, hnone]

/-! ## The ways in which a line ends -/

/-- There is one complaint, which is about a line of the kind and does not stop the run. -/
def Complains (c : Context) : Prop :=
  ∃ kind d, c.kind = some kind ∧ c.errors = [d] ∧ d.code ∈ kind.complaints ∧ d.code.isFatal = false

/-- The line is a declaration or an assignment. -/
def Writes (c : Context) : Prop := c.kind = some .declaration ∨ c.kind = some .assignment

/-- What a line leaves, run on the store `σ`, in each of the ways in which it can end. -/
def Ends (σ : Store) (line : Bytes) (c : Context) : Step.Outcome → Prop
  | .stored => c.Writes ∧ c.output = [] ∧ c.errors = [] ∧
      ∃ s, c.statement = some s ∧ c.kind = some s.kind ∧ s.run.on σ = (.ok [], c.store)
  | .refused => c.Writes ∧ c.output = [] ∧ c.Complains ∧ c.store = σ
  | .failed => c.kind = some .print ∧ c.output = [line] ∧ c.Complains ∧ c.store = σ
  | .shown => c.kind = some .print ∧ (∃ v, c.output = [line, utf8 "Result: " ++ v, []]) ∧
      c.errors = [] ∧ c.store = σ

/-- The way in which a line ends, told by its kind and whether something was wrong. -/
def outcome (c : Context) : Step.Outcome :=
  if c.kind = some .print then if c.failed then .failed else .shown
  else if c.failed then .refused else .stored

/-- A line that writes is no print line. -/
theorem Writes.ne_print {c : Context} (h : c.Writes) : c.kind ≠ some .print := by
  rcases h with h | h <;> simp [h]

/-- Something was wrong with a line that is complained about. -/
theorem Complains.failed {c : Context} (h : c.Complains) : c.failed = true := by
  obtain ⟨kind, d, -, herrors, -⟩ := h
  rw [Context.failed, herrors]
  rfl

/-- A line ends in no other way than it is told. -/
theorem Ends.eq_outcome {σ : Store} {line : Bytes} {c : Context} {o : Step.Outcome}
    (h : c.Ends σ line o) : o = c.outcome := by
  unfold outcome
  cases o with
  | stored =>
      obtain ⟨hwrites, -, herrors, -⟩ := h
      simp [hwrites.ne_print, failed, herrors]
  | refused =>
      obtain ⟨hwrites, -, hcomplains, -⟩ := h
      simp [hwrites.ne_print, hcomplains.failed]
  | failed =>
      obtain ⟨hkind, -, hcomplains, -⟩ := h
      simp [hkind, hcomplains.failed]
  | shown =>
      obtain ⟨hkind, -, herrors, -⟩ := h
      simp [hkind, failed, herrors]

/-- A line that is complained about ends so. -/
theorem exists_ends_of_complains {σ : Store} {line : Bytes} {c : Context} {kind : LineKind}
    (hkind : c.kind = some kind) (h : c.Complains) (houtput : c.output = Reading.echo kind line)
    (hstore : c.store = σ) : ∃ o, c.Ends σ line o := by
  cases kind with
  | print => exact ⟨.failed, hkind, houtput, h, hstore⟩
  | declaration => exact ⟨.refused, .inl hkind, houtput, h, hstore⟩
  | assignment => exact ⟨.refused, .inr hkind, houtput, h, hstore⟩

/-- What a statement complains about is one of the complaints of its kind. -/
theorem code_of_fails {σ : Store} {s : Statement} {d : Diagnostic} (h : s.Fails σ d) :
    d.code ∈ s.kind.complaints := by
  cases h with
  | leaf h =>
      rcases Expr.code_of_eval h with h | h
      · simp [Statement.kind, LineKind.complaints, h]
      · simp [Statement.kind, LineKind.complaints, h]
  | _ => simp [Statement.kind, Statement.refusal, LineKind.complaints]

/-- A line whose statement is carried out ends so. -/
theorem exists_ends_of_run {σ : Store} {line : Bytes} {c : Context} {s : Statement}
    {out : List Bytes} (hkind : c.kind = some s.kind) (hs : c.statement = some s)
    (houtput : c.output = Reading.echo s.kind line ++ out) (herrors : c.errors = [])
    (hprint : s.target? = none → ∃ number body e, s = .printing number line body e)
    (hrun : s.run.on σ = (.ok out, c.store)) : ∃ o, c.Ends σ line o := by
  cases s with
  | declaration type name value =>
      have hout := (Prod.mk.inj ((Statement.on_run_declaration σ _ _ _).symm.trans hrun)).1
      obtain ⟨u, -, rfl⟩ := Except.map_eq_ok_iff.1 hout
      exact ⟨.stored, .inl hkind, houtput, herrors, _, hs, hkind, hrun⟩
  | assignment name value =>
      have hout := (Prod.mk.inj ((Statement.on_run_assignment σ _ _).symm.trans hrun)).1
      obtain ⟨u, -, rfl⟩ := Except.map_eq_ok_iff.1 hout
      exact ⟨.stored, .inr hkind, houtput, herrors, _, hs, hkind, hrun⟩
  | print keyword source body value =>
      obtain ⟨number, body', e, heq⟩ := hprint rfl
      cases heq
      rw [Statement.on_run_print] at hrun
      obtain ⟨hout, hstore⟩ := Prod.mk.inj hrun
      obtain ⟨v, rfl⟩ := Statement.output_of_execPrint hout
      exact ⟨.shown, hkind, ⟨v, houtput⟩, herrors, hstore.symm⟩

/-- **A line is read, or there is one complaint**, after the first three stages, and nothing was
stored. -/
theorem reads_or_complains (σ : Store) (lenient : Bool) (number : Int) (line : Bytes) :
    let c := (start σ lenient number line).classify.scan.parse
    c.store = σ ∧ (((∃ s, c.statement = some s) ∧ c.errors = []) ∨
      (c.statement = none ∧ c.Complains)) := by
  intro c
  have hc : c = ofReading σ lenient number line (Reading.ofLine lenient number line) :=
    front_eq σ lenient number line
  rw [hc]
  refine ⟨rfl, ?_⟩
  rcases Reading.reads_or_complains lenient number line with ⟨hs, hnone⟩ | ⟨hnone, d, hd, hcode⟩
  · exact .inl ⟨hs, by simp only [ofReading, hnone, Option.toList_none]⟩
  · refine .inr ⟨hnone, _, d, rfl, ?_, hcode, LineKind.isFatal_of_mem_complaints _ _ hcode⟩
    simp only [ofReading, hd, Option.toList_some]

/-- Every line ends in some way. -/
theorem exists_ends (σ : Store) (lenient : Bool) (number : Int) (line : Bytes) :
    ∃ o, (start σ lenient number line).run.Ends σ line o := by
  have hread := (reads_or_complains σ lenient number line).2
  rw [front_eq] at hread
  rw [run_eq]
  rcases hread with ⟨⟨s, hs⟩, herrors⟩ | ⟨hnone, hcomplains⟩
  · have hs : (Reading.ofLine lenient number line).statement? = some s := hs
    obtain ⟨hkind, hprint⟩ :=
      Reading.statement_of_outcome (Reading.statement?_eq_some_iff.1 hs)
    rw [← Reading.kind_ofLine lenient number line] at hkind
    simp only [hs]
    cases hrun : s.run.on σ with
    | mk result σ' =>
        cases result with
        | error d =>
            obtain ⟨rfl, hfails⟩ := Statement.on_run_eq_error_iff.1 hrun
            have hcode := code_of_fails hfails
            rw [hkind, ← Step.code_place number d] at hcode
            rw [carryOut_of_error hrun, herrors]
            have hfatal := LineKind.isFatal_of_mem_complaints _ _ hcode
            exact exists_ends_of_complains rfl ⟨_, _, rfl, rfl, hcode, hfatal⟩ rfl rfl
        | ok out =>
            rw [carryOut_of_ok hrun]
            refine exists_ends_of_run (congrArg some hkind.symm) hs ?_ herrors
              (fun h => ⟨number, hprint h⟩) hrun
            rw [hkind]
            rfl
  · have hnone : (Reading.ofLine lenient number line).statement? = none := hnone
    simp only [hnone]
    exact exists_ends_of_complains rfl hcomplains rfl rfl

/-- **Every line ends in exactly one way**, which its kind and its complaints tell. -/
theorem ends_iff (σ : Store) (lenient : Bool) (number : Int) (line : Bytes) (o : Step.Outcome) :
    let c := (start σ lenient number line).run
    c.Ends σ line o ↔ o = c.outcome := by
  intro c
  constructor
  · exact Ends.eq_outcome
  · rintro rfl
    obtain ⟨o, ho⟩ := exists_ends σ lenient number line
    exact ho.eq_outcome ▸ ho

/-! ## Lines on a table -/

section Shown

variable {σ : Store} {hσ : σ.InStep} {line : Bytes} {c : Context} {step : Step}

/-- Both are of the same kind. -/
theorem Shows.kind_eq (h : c.Shows step) {k : LineKind} (hk : c.kind = some k) : step.kind = k :=
  Option.some.inj (h.kind.symm.trans hk)

/-- So the step of a line that writes is none of a print line. -/
theorem Shows.ne_print (h : c.Shows step) (hwrites : c.Writes) : step.kind ≠ .print := by
  intro hprint
  exact hwrites.ne_print (h.kind.trans (congrArg some hprint))

/-- If nothing was wrong, nothing is complained about. -/
theorem Shows.diagnostic?_eq_none (h : c.Shows step) (hnil : c.errors = []) :
    step.diagnostic? = none := by
  rw [← Option.toList_eq_nil_iff, ← h.errors, hnil]

/-- Both are complained about. -/
theorem Shows.complains (h : c.Shows step) (hc : c.Complains) : step.Complains := by
  obtain ⟨k, d, hk, hd, hcode⟩ := hc
  obtain rfl : step.kind = k := h.kind_eq hk
  refine ⟨d, ?_, hcode⟩
  rw [← Option.toList_eq_singleton_iff, ← h.errors, hd]

/-- A store that is left as it was keeps its table. -/
theorem Shows.table_eq (h : c.Shows step) (hstore : c.store = σ) : step.table = hσ.table := by
  obtain ⟨h', htable⟩ := h.table
  subst hstore
  exact htable.symm

/-- A statement that was carried out has made its call on the table. -/
theorem exists_call_of_run {s : Statement} (hwrites : c.Writes) (hkind : c.kind = some s.kind)
    (hrun : s.run.on σ = (.ok [], c.store)) (h : c.Shows step) :
    ∃ v call, s.Stores hσ.table v ∧ s.call? v = some call ∧
      hσ.table.call call = .ok step.table := by
  obtain ⟨h', htable⟩ := h.table
  obtain ⟨h'', hexec⟩ := Statement.exec_of_on_run hσ hrun
  obtain ⟨name, hname⟩ : ∃ name, s.target? = some name := by
    cases s with
    | declaration type n value => exact ⟨_, rfl⟩
    | assignment n value => exact ⟨_, rfl⟩
    | print keyword source body value => exact absurd hkind hwrites.ne_print
  obtain ⟨-, v, call, hv, hc, hcall⟩ := (Statement.exec_eq_ok_iff hname).1 hexec
  exact ⟨v, call, hv, hc, hcall.trans (congrArg _ htable)⟩

/-- **A line ends on the table of a store as it ends on the store.** -/
theorem Ends.ends_table {o : Step.Outcome} (hends : c.Ends σ line o) (h : c.Shows step) :
    step.Ends hσ.table line o := by
  cases o with
  | stored =>
      obtain ⟨hwrites, hout, hnil, s, hs, hkind, hrun⟩ := hends
      obtain ⟨v, call, hv, hc, hcall⟩ := exists_call_of_run hwrites hkind hrun h
      exact ⟨h.ne_print hwrites, h.output.symm.trans hout, h.diagnostic?_eq_none hnil, s, v, call,
        h.statement.symm.trans hs, hv, hc, hcall⟩
  | refused =>
      obtain ⟨hwrites, hout, hc, hstore⟩ := hends
      exact ⟨h.ne_print hwrites, h.output.symm.trans hout, h.complains hc, h.table_eq hstore⟩
  | failed =>
      obtain ⟨hprint, hout, hc, hstore⟩ := hends
      exact ⟨h.kind_eq hprint, h.output.symm.trans hout, h.complains hc, h.table_eq hstore⟩
  | shown =>
      obtain ⟨hprint, ⟨v, hout⟩, hnil, hstore⟩ := hends
      exact ⟨h.kind_eq hprint, ⟨v, h.output.symm.trans hout⟩, h.diagnostic?_eq_none hnil,
        h.table_eq hstore⟩

end Shown

end Context

/-- Every line ends in some way on every table. -/
theorem Step.exists_ends (lenient : Bool) (t : Table) (number : Int) (line : Bytes) :
    ∃ o, (ofLine lenient t number line).Ends t line o := by
  obtain ⟨h, htable⟩ := Store.exists_table_ofTable t
  obtain ⟨o, ho⟩ := Context.exists_ends (Store.ofTable t) lenient number line
  rw [← htable]
  exact ⟨o, ho.ends_table (Context.run_shows h lenient number line)⟩

end LineCalc
