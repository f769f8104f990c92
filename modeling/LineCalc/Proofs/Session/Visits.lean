import LineCalc.Proofs.Line.Context
import LineCalc.Proofs.Statement.Validity
import LineCalc.Session.Run
/-!
# The lines that a run visits

A run takes the lines of a program that are not blank one after the other, each with the session
that the lines before it left.

* `Visit.context_shows` : the stages of a visited line do what running the line does;
* `Session.exists_runLine` : what running a line leaves;
* `Session.visits` : these lines, with their numbers and sessions;
* `Session.runLines_eq` : a run ends with what its last visit leaves, and counts one error for every
  visit with a complaint;
* `Session.executed`, `Session.runLines_executed` : the same where a line is too long, of the visits
  before it;
* `Step.ofLine_of_valid` : a valid statement leaves what was declared and what it declares, and
  complains about arithmetic only.
-/
namespace LineCalc

/-! ## One line -/

namespace Step

/-- A valid statement complains about arithmetic only, and the table then declares what it did
before and what the statement declares. -/
theorem ofLine_of_valid {lenient : Bool} {t : Table} {number : Int} {line : Bytes} {s : Statement}
    (h : (Reading.ofLine lenient number line).outcome = .ok s) (hs : s.Valid t.Declares) :
    (ofLine lenient t number line).statement? = some s ∧
      (∀ d ∈ (ofLine lenient t number line).diagnostic?, d.code = .arithmetic) ∧
      ∀ n k, (ofLine lenient t number line).table.Declares n k ↔
        t.Declares n k ∨ s.declares n k := by
  rw [ofLine_of_outcome h]
  refine ⟨rfl, ?_⟩
  unfold execute
  rcases Statement.exec_of_valid hs with ⟨t', out, hexec, hdeclares⟩ | ⟨d, hexec, hcode, hnone⟩
  · rw [hexec]
    exact ⟨by simp, hdeclares⟩
  · rw [hexec]
    refine ⟨?_, ?_⟩
    · rintro _ ⟨⟩
      rw [code_place, hcode]
    · intro n k
      simp [hnone n k]

end Step

/-! ## Lines that are visited -/

/-- A line that is not blank, its number, and the session that runs it. -/
structure Visit where
  session : Session
  number : Nat
  line : Bytes

/-- What the stages leave of the line. -/
def Visit.context (v : Visit) : Context :=
  (Context.start v.session.store v.session.options.lenient v.number v.line).run

/-- What running the line does. -/
def Visit.step (v : Visit) : Step :=
  Step.ofLine v.session.options.lenient v.session.table v.number v.line

/-- The stages do what running the line does. -/
theorem Visit.context_shows (v : Visit) : v.context.Shows v.step :=
  Context.run_shows v.session.inStep v.session.options.lenient v.number v.line

/-- What a line writes, piece by piece: the lines of its step, then the complaint about it. -/
def Visit.written (v : Visit) : List Bytes :=
  (v.step.output ++
    (v.step.diagnostic?.toList.map fun d => v.session.paint (utf8 "- " ++ d.text))).map
      (· ++ utf8 "\n")

namespace Session

/-- Nothing but output, log and source differ between the sessions. -/
structure Keeps (s s' : Session) : Prop where
  table : s'.table = s.table
  options : s'.options = s.options
  errors : s'.errors = s.errors

/-- A note changes the log only. -/
theorem exists_note (s : Session) (message : Bytes) :
    ∃ log, s.note message = { s with log := log } := by
  unfold note
  split
  · exact ⟨_, rfl⟩
  · exact ⟨s.log, rfl⟩

/-- So do all notes. -/
theorem exists_foldl_note (texts : List Bytes) (s : Session) :
    ∃ log, texts.foldl note s = { s with log := log } := by
  induction texts generalizing s with
  | nil => exact ⟨s.log, rfl⟩
  | cons b texts ih =>
      obtain ⟨log, hnote⟩ := s.exists_note b
      obtain ⟨log', hnotes⟩ := ih (s.note b)
      exact ⟨log', by rw [List.foldl_cons, hnotes, hnote]⟩

/-- So do the notes on a line. -/
theorem exists_noteLine (s : Session) (c : Context) :
    ∃ log, s.noteLine c = { s with log := log } := by
  unfold noteLine
  split
  · exact exists_foldl_note _ s
  · exact ⟨s.log, rfl⟩

/-- Lines are written one behind the other, and change the output only. -/
theorem foldl_writeLine (lines : List Bytes) (s : Session) : lines.foldl writeLine s =
    { s with output := (lines.map (· ++ utf8 "\n")).foldl Output.write s.output } := by
  induction lines generalizing s with
  | nil => rfl
  | cons l lines ih => exact ih (s.writeLine l)

/-- Announcing a run changes the source and the log only. -/
theorem exists_announce (s : Session) :
    ∃ source log, s.announce = { s with source := source, log := log } := by
  unfold announce
  extract_lets s₁ s₂
  obtain ⟨source, hs₁⟩ : ∃ source, s₁ = { s with source := source } := by
    simp only [s₁]
    split
    · exact ⟨_, rfl⟩
    · exact ⟨s.source, rfl⟩
  obtain ⟨log, hs₂⟩ : ∃ log, s₂ = { s₁ with log := log } := s₁.exists_note _
  split
  · obtain ⟨log', hnote⟩ := s₂.exists_note (utf8 "run " ++ s₂.runId ++ utf8 ": " ++ _)
    exact ⟨source, log', by rw [noteRun, hnote, hs₂, hs₁]⟩
  · exact ⟨source, log, by rw [hs₂, hs₁]⟩

/-- So it keeps all that lines depend on. -/
theorem announce_keeps (s : Session) : Keeps s s.announce := by
  obtain ⟨source, log, h⟩ := s.exists_announce
  rw [h]
  exact ⟨rfl, rfl, rfl⟩

/-- Complaints are counted and written one behind the other. -/
theorem foldl_report (ds : List Diagnostic) (s : Session) : ds.foldl report s =
    { s with
      errors := s.errors + ds.length
      output := ((ds.map fun d => s.paint (utf8 "- " ++ d.text)).map (· ++ utf8 "\n")).foldl
        Output.write s.output } := by
  induction ds generalizing s with
  | nil => rfl
  | cons d ds ih =>
      rw [List.foldl_cons, ih, List.length_cons, Nat.add_comm ds.length 1, ← Nat.add_assoc]
      rfl

/-- **What running a line leaves**: a store with the table of its step, its complaint counted, what
the line writes, and some more notes. -/
theorem exists_runLine (v : Visit) : ∃ (store : Store) (h : store.InStep) (log : Array Bytes),
    h.table = v.step.table ∧ v.session.runLine v.number v.line =
      { v.session with
        store := store
        inStep := h
        errors := v.session.errors + v.step.diagnostic?.toList.length
        output := v.written.foldl Output.write v.session.output
        log := log } := by
  obtain ⟨-, -, houtput, herrors, h, htable⟩ := v.context_shows
  obtain ⟨log, hnotes⟩ := (v.session.keep v.context.store h).exists_noteLine v.context
  refine ⟨v.context.store, h, log, htable, ?_⟩
  show v.context.errors.foldl report (v.context.output.foldl writeLine
    ((v.session.keep v.context.store h).noteLine v.context)) = _
  rw [hnotes, foldl_writeLine, foldl_report, Visit.written, houtput, herrors, List.map_append,
    List.foldl_append]
  rfl

/-- Running a line leaves the table of its step, keeps the options, and counts an error just if
there is a complaint. -/
theorem runLine_spec (s : Session) (number : Nat) (line : Bytes) :
    let step := Step.ofLine s.options.lenient s.table number line
    (s.runLine number line).table = step.table ∧ (s.runLine number line).options = s.options ∧
      (s.runLine number line).errors = s.errors + step.diagnostic?.toList.length := by
  obtain ⟨store, hstore, log, htable, h⟩ := exists_runLine ⟨s, number, line⟩
  have h : s.runLine number line = _ := h
  rw [h]
  exact ⟨htable, rfl, rfl⟩

end Session

/-! ## Visits -/

/-- The line declares the name with the kind. -/
def Visit.Declares (v : Visit) (name : Bytes) (k : Kind) : Prop :=
  ∃ s, v.step.statement? = some s ∧ s.declares name k

/-- After the earlier visits, the line is read as a statement that is valid with what they declared,
and running it complains about arithmetic at most. -/
def Visit.Valid (earlier : List Visit) (v : Visit) : Prop :=
  ∃ s, v.step.statement? = some s ∧ s.Valid (fun name k => ∃ u ∈ earlier, u.Declares name k) ∧
    ∀ d ∈ v.step.diagnostic?, d.code = .arithmetic

namespace Session

/-- The lines that a run visits: those that are not blank, each with the session that the lines
before it left. -/
def visits (s : Session) (number : Nat) : List Bytes → List Visit
  | [] => []
  | line :: rest =>
      if (Text.trim line).isEmpty then s.visits (number + 1) rest
      else ⟨s, number, Text.trim line⟩ ::
        (s.runLine number (Text.trim line)).visits (number + 1) rest

/-- **A run is its visits.**  If no line is too long, a run ends regularly, with what its last visit
leaves, and counts one error for every visit with a complaint. -/
theorem runLines_eq {lines : List Bytes} (hlines : ∀ line ∈ lines, line.length < lineLimit) :
    ∀ (s : Session) (number : Nat), s.runLines false number lines =
        ((s.visits number lines).foldl (fun _ v => v.session.runLine v.number v.line) s, none) ∧
      (s.runLines false number lines).1.errors = s.errors +
        ((s.visits number lines).flatMap fun v => v.step.diagnostic?.toList).length := by
  induction lines with
  | nil =>
      intro s number
      exact ⟨rfl, rfl⟩
  | cons line lines ih =>
      intro s number
      obtain ⟨hline, hlines⟩ := List.forall_mem_cons.1 hlines
      have ih := ih hlines
      rw [runLines, if_neg (Nat.not_le.2 hline), if_neg (by simp), visits]
      by_cases hblank : (Text.trim line).isEmpty
      · simp only [hblank, if_true]
        exact ih s (number + 1)
      · simp only [hblank, Bool.false_eq_true, if_false]
        obtain ⟨heq, herrors⟩ := ih (s.runLine number (Text.trim line)) (number + 1)
        refine ⟨heq, herrors.trans ?_⟩
        rw [(runLine_spec s number (Text.trim line)).2.2, List.flatMap_cons, List.length_append,
          Nat.add_assoc]
        rfl

/-- The lines that a run executes: those that it visits before the first line that is too long, and
none if it is cancelled. -/
def executed (isCancelled : Bool) (s : Session) (number : Nat) (lines : List Bytes) : List Visit :=
  if isCancelled then [] else s.visits number (lines.takeWhile (·.length < lineLimit))

/-- A run leaves what it leaves of the lines before the first one that is too long. -/
theorem runLines_takeWhile (lines : List Bytes) : ∀ (s : Session) (number : Nat),
    (s.runLines false number lines).1 =
      (s.runLines false number (lines.takeWhile (·.length < lineLimit))).1 := by
  induction lines with
  | nil => exact fun s number => rfl
  | cons line lines ih =>
      intro s number
      by_cases hline : line.length < lineLimit
      · rw [List.takeWhile_cons_of_pos (by simpa using hline), runLines, runLines,
          if_neg (Nat.not_le.2 hline), if_neg (Nat.not_le.2 hline), if_neg (by simp),
          if_neg (by simp)]
        exact ih _ _
      · have hstop : s.runLines false number (line :: lines) = (s, some .lineTooLong) := by
          rw [runLines, if_pos (Nat.not_lt.1 hline)]
        rw [List.takeWhile_cons_of_neg (by simpa using hline), hstop]
        rfl

/-- **A run is the lines that it executes.**  Whatever the lines, a run leaves what the last line
that it executes does, and counts one error for every complaint about one of them. -/
theorem runLines_executed (isCancelled : Bool) (s : Session) (number : Nat) (lines : List Bytes) :
    (s.runLines isCancelled number lines).1 =
        (s.executed isCancelled number lines).foldl
          (fun _ v => v.session.runLine v.number v.line) s ∧
      (s.runLines isCancelled number lines).1.errors = s.errors +
        ((s.executed isCancelled number lines).flatMap
          fun v => v.step.diagnostic?.toList).length := by
  cases isCancelled with
  | true =>
      have hrun : (s.runLines true number lines).1 = s := by
        cases lines with
        | nil => rfl
        | cons line lines =>
            rw [runLines]
            split
            · rfl
            · rfl
      rw [hrun]
      exact ⟨rfl, rfl⟩
  | false =>
      have hlines : ∀ line ∈ lines.takeWhile (·.length < lineLimit), line.length < lineLimit := by
        intro line hline
        simpa using List.mem_takeWhile_imp hline
      obtain ⟨hrun, herrors⟩ := runLines_eq hlines s number
      rw [runLines_takeWhile]
      exact ⟨congrArg Prod.fst hrun, herrors⟩

/-- A visit is to the line of its number, without the white space around it. -/
theorem visits_line (lines : List Bytes) : ∀ (s : Session) (number : Nat),
    ∀ v ∈ s.visits number lines, number ≤ v.number ∧
      ∃ line, lines[v.number - number]? = some line ∧ Text.trim line = v.line := by
  induction lines with
  | nil => simp [visits]
  | cons line lines ih =>
      intro s number
      have hlater : ∀ (s : Session), ∀ v ∈ s.visits (number + 1) lines, number ≤ v.number ∧
          ∃ l, (line :: lines)[v.number - number]? = some l ∧ Text.trim l = v.line := by
        intro s v hv
        obtain ⟨hle, l, hl, htrim⟩ := ih s (number + 1) v hv
        refine ⟨by omega, l, ?_, htrim⟩
        rw [show v.number - number = v.number - (number + 1) + 1 by omega, List.getElem?_cons_succ,
          hl]
      rw [visits]
      split
      · exact hlater s
      · refine List.forall_mem_cons.2 ⟨⟨le_rfl, line, ?_, rfl⟩, hlater _⟩
        rw [Nat.sub_self, List.getElem?_cons_zero]

/-- The same of the lines that a run executes. -/
theorem executed_line {isCancelled : Bool} {s : Session} {number : Nat} {lines : List Bytes}
    {v : Visit} (hv : v ∈ s.executed isCancelled number lines) : number ≤ v.number ∧
      ∃ line, lines[v.number - number]? = some line ∧ Text.trim line = v.line := by
  unfold executed at hv
  split at hv
  · cases hv
  · obtain ⟨hle, line, hline, htrim⟩ := visits_line _ s number v hv
    refine ⟨hle, line, ?_, htrim⟩
    obtain ⟨rest, hrest⟩ : lines.takeWhile (·.length < lineLimit) <+: lines :=
      List.takeWhile_prefix _
    rw [← hrest, List.getElem?_append_left (List.getElem?_eq_some_iff.1 hline).1, hline]

/-- Visits go down the lines. -/
theorem visits_pairwise (s : Session) (number : Nat) (lines : List Bytes) :
    (∀ v ∈ s.visits number lines, number ≤ v.number) ∧
      (s.visits number lines).Pairwise fun u v => u.number < v.number := by
  induction lines generalizing s number with
  | nil => exact ⟨by simp [visits], .nil⟩
  | cons line lines ih =>
      rw [visits]
      split
      · obtain ⟨hle, hpair⟩ := ih s (number + 1)
        exact ⟨fun v hv => Nat.le_of_succ_le (hle v hv), hpair⟩
      · obtain ⟨hle, hpair⟩ := ih (s.runLine number (Text.trim line)) (number + 1)
        refine ⟨?_, List.pairwise_cons.2 ⟨hle, hpair⟩⟩
        exact List.forall_mem_cons.2 ⟨le_rfl, fun v hv => Nat.le_of_succ_le (hle v hv)⟩

/-- Blank lines are passed over. -/
theorem visits_append_of_blank {blanks : List Bytes} (hblanks : ∀ l ∈ blanks, Text.trim l = []) :
    ∀ (s : Session) (number : Nat) (lines : List Bytes),
      s.visits number (blanks ++ lines) = s.visits (number + blanks.length) lines := by
  induction blanks with
  | nil => exact fun s number lines => rfl
  | cons b blanks ih =>
      intro s number lines
      obtain ⟨hb, hblanks⟩ := List.forall_mem_cons.1 hblanks
      rw [List.cons_append, visits, hb, if_pos (by simp), ih hblanks, List.length_cons]
      congr 1
      omega

end Session

end LineCalc
