import LineCalc.Proofs.Sampler.Statement
import LineCalc.Proofs.Session.Lines
import LineCalc.Proofs.Session.Visits
/-!
# Sample programs are valid

The variables that the sampler keeps are those of the table of a session that runs the program, so
every line of the program is valid when it is run.

* `Sampler.valid_of_drawn` : one drawn statement, run by a session with the same variables;
* `Sampler.times_visits` : a row of drawn lines;
* `Sampler.program_is_valid` : whole programs.
-/
namespace LineCalc.Sampler

variable {ds : List (Bytes × Kind)}

/-! ## Lines -/

/-- A drawn blank. -/
theorem blank_yields : Yields ds blank fun s => ∃ b, Text.isAsciiBlank b ∧ s = [b] := by
  refine (choose_yields 3).bind fun n _ => ?_
  match n with
  | 0 => exact .pure ⟨⟨0x20, by decide⟩, rfl⟩
  | 1 => exact .pure ⟨⟨0x09, by decide⟩, rfl⟩
  | n + 2 => exact .pure ⟨⟨0x0a, by decide⟩, rfl⟩

/-- Drawn white space. -/
theorem noise_yields : Yields ds noise fun s => s.length ≤ 3 ∧ ∀ b ∈ s, Text.isAsciiBlank b := by
  refine (oneIn_yields 10).bind fun b _ => ?_
  cases b with
  | true =>
      refine (choose_yields 3).bind fun n hn => (times_yields blank_yields (n + 1)).imp ?_
      rintro s ds' ⟨⟨hlength, hs⟩, rfl⟩
      have := hn (by decide)
      exact ⟨⟨by omega, hs⟩, rfl⟩
  | false => exact .pure ⟨⟨by simp, by simp⟩, rfl⟩

/-- A drawn line: white space, a statement and a line break. -/
theorem line_draws (h : Sound ds) :
    Draws ds line fun text ds' => ∃ ws stmt s, text = ws ++ (stmt ++ [0x0a]) ∧ ws.length ≤ 3 ∧
      (∀ b ∈ ws, Text.isAsciiBlank b) ∧ Drawn ds stmt ds' s := by
  refine noise_yields.bind fun ws hws => (statement_draws h).bind ?_
  rintro stmt ds' ⟨s, hs⟩
  refine .pure ⟨ws, stmt, s, ?_, hws.1, hws.2, hs⟩
  rw [List.append_assoc]
  rfl

/-- Blank lines are trimmed away. -/
theorem trim_of_blank {l ws : Bytes} (hl : l.Sublist ws) (hws : ∀ b ∈ ws, Text.isAsciiBlank b) :
    Text.trim l = [] := by
  have hblank : ∀ b ∈ l, Text.isAsciiBlank b := fun b hb => hws b (hl.subset hb)
  have htrim := Text.trim_append (s := []) hblank (by simp) (by simp)
  rwa [List.append_nil] at htrim

/-! ## One visit -/

/-- A session that runs a drawn statement reads it, finds it valid and complains about arithmetic at
most. -/
theorem valid_of_drawn {s : Session} {text : Bytes} {ds' : List (Bytes × Kind)} {st : Statement}
    {past : List Visit} (number : Nat) (hstrict : s.options.lenient = false)
    (htable : s.table.Declares = Knows ds)
    (hpast : s.table.Declares = fun name k => ∃ u ∈ past, u.Declares name k)
    (h : Drawn ds text ds' st) :
    (Visit.mk s number text).Valid past ∧
      (s.runLine number text).table.Declares = Knows ds' ∧
      (s.runLine number text).table.Declares =
        fun name k => ∃ u ∈ past ++ [⟨s, number, text⟩], u.Declares name k := by
  obtain ⟨st', houtcome, houtline, -, -⟩ :=
    Reading.outcome_of_writes number h.wellFormed h.spelled h.writes
  have hdeclares : st'.declares = st.declares := by
    rw [← Statement.declares_outline, houtline, Statement.declares_outline]
  have hvalid : st'.Valid s.table.Declares := by
    rw [← Statement.valid_outline, houtline, Statement.valid_outline, htable]
    exact h.valid
  rw [← hstrict] at houtcome
  obtain ⟨hstatement, hdiagnostic, hafter⟩ := Step.ofLine_of_valid houtcome hvalid
  have hvisit : (Visit.mk s number text).Declares = st'.declares := by
    funext name k
    have : (Visit.mk s number text).step.statement? = some st' := hstatement
    simp [Visit.Declares, this]
  have hrun : ∀ name k, (s.runLine number text).table.Declares name k ↔
      s.table.Declares name k ∨ st'.declares name k := by
    rw [(Session.runLine_spec s number text).1]
    exact hafter
  refine ⟨⟨st', hstatement, ?_, hdiagnostic⟩, ?_, ?_⟩
  · rwa [← hpast]
  · funext name k
    rw [propext (hrun name k), htable, hdeclares]
    exact (propext (h.knows name k)).symm
  · funext name k
    rw [propext (hrun name k), hpast, ← hvisit]
    simp [or_and_right, exists_or]

/-! ## Runs -/

/-- The lines that a drawn line and what follows it are visited as: the statement alone, in its
place. -/
theorem visits_of_drawn {ws stmt : Bytes} {ds' : List (Bytes × Kind)} {st : Statement}
    (hws : ∀ b ∈ ws, Text.isAsciiBlank b) (hlength : ws.length ≤ 3) (h : Drawn ds stmt ds' st)
    (s : Session) (number : Nat) (rest : Bytes) :
    ∃ number', s.visits number (programLines (ws ++ (stmt ++ 0x0a :: rest))) =
        ⟨s, number', stmt⟩ :: (s.runLine number' stmt).visits (number' + 1) (programLines rest) ∧
      ∀ l ∈ programLines (ws ++ (stmt ++ 0x0a :: rest)), l.length < lineLimit ∨
        l ∈ programLines rest := by
  -- only the white space can break the line, so the statement is on a line of its own
  have hbreak : ∀ b ∈ stmt, b ≠ 0x0a := by
    rintro b hb rfl
    rcases h.tidy.plain _ hb with hsolid | hspace
    · cases hsolid
    · cases hspace
  obtain ⟨parts, before, hparts, hbefore, hlines⟩ := programLines_append hbreak ws rest
  have htrim : Text.trim (before ++ stmt) = stmt :=
    Text.trim_append (fun b hb => hws b (hbefore.subset hb)) h.tidy.first h.tidy.last
  have hempty : ¬ (Text.trim (before ++ stmt)).isEmpty := by
    rw [htrim]
    simpa using h.tidy.ne_nil
  rw [hlines]
  refine ⟨number + parts.length, ?_, ?_⟩
  · rw [Session.visits_append_of_blank fun p hp => trim_of_blank (hparts p hp) hws, Session.visits,
      if_neg hempty, htrim]
  · have hlimit : 103 < lineLimit := by decide
    refine List.forall_mem_append.2 ⟨?_, List.forall_mem_cons.2 ⟨.inl ?_, fun l hl => .inr hl⟩⟩
    · intro p hp
      have := (hparts p hp).length_le
      exact .inl (by omega)
    · have h₁ := hbefore.length_le
      have h₂ := h.length_le
      rw [List.length_append]
      omega

/-- A row of drawn lines, run by a session with the sampler's variables after some earlier visits:
no line is too long, and every line is valid when it is visited. -/
theorem times_visits (n : Nat) :
    ∀ (g : Sampler) (s : Session) (number : Nat) (past : List Visit), Sound g.declared →
      s.options.lenient = false → s.table.Declares = Knows g.declared →
      (s.table.Declares = fun name k => ∃ u ∈ past, u.Declares name k) →
      (∀ l ∈ programLines (times n line g).1, l.length < lineLimit) ∧
      ∀ earlier v later,
        s.visits number (programLines (times n line g).1) = earlier ++ v :: later →
        v.Valid (past ++ earlier) := by
  -- the invariant: the sampler, the table and the visits so far have the same declarations
  induction n with
  | zero =>
      intro g s number past _ _ _ _
      have hlines : programLines (times 0 line g).1 = [] := rfl
      rw [hlines]
      refine ⟨by simp, ?_⟩
      intro earlier v later hsplit
      exact absurd hsplit (by simp [Session.visits])
  | succ n ih =>
      intro g s number past hsound hstrict htable hpast
      obtain ⟨ws, stmt, st, htext, hlength, hws, hdrawn⟩ := line_draws hsound g rfl
      have hprogram : (times (n + 1) line g).1 =
          ws ++ (stmt ++ 0x0a :: (times n line (line g).2).1) := by
        show (line g).1 ++ (times n line (line g).2).1 = _
        rw [htext]
        simp
      obtain ⟨number', hvisits, hlimit⟩ :=
        visits_of_drawn hws hlength hdrawn s number (times n line (line g).2).1
      obtain ⟨hvalid, htable', hpast'⟩ := valid_of_drawn number' hstrict htable hpast hdrawn
      have hstrict' : (s.runLine number' stmt).options.lenient = false := by
        rw [(Session.runLine_spec s number' stmt).2.1, hstrict]
      obtain ⟨hlimit', hlater⟩ := ih (line g).2 (s.runLine number' stmt) (number' + 1)
        (past ++ [⟨s, number', stmt⟩]) hdrawn.sound hstrict' htable' hpast'
      rw [hprogram, hvisits]
      constructor
      · intro l hl
        exact (hlimit l hl).elim id (hlimit' l)
      · intro earlier v later hsplit
        -- either this line is the visit in question, or it is one of those before it
        cases earlier with
        | nil =>
            obtain ⟨rfl, -⟩ := List.cons.inj hsplit
            rwa [List.append_nil]
        | cons u earlier =>
            obtain ⟨rfl, hrest⟩ := List.cons.inj hsplit
            have := hlater earlier v later hrest
            rwa [List.append_assoc] at this

/-- **Sample programs are valid.**  Whatever the bytes, a strict session that runs the program drawn
from them visits its lines to the end.  Every line that is not blank is read as a statement whose
variables were declared on earlier lines, with the kinds they are used at, and whose literals are
values, and the run reports nothing but complaints about arithmetic, one error each. -/
theorem program_is_valid (options : Options) (runId : Bytes) (limit : Option Nat)
    (workspace : Workspace) (data : Bytes) :
    let s := Session.start { options with lenient := false } runId limit workspace
    let text := (program (ofBytes data)).1
    let visits := s.announce.visits 1 (programLines text)
    s.run text false =
        (visits.foldl (fun _ v => v.session.runLine v.number v.line) s.announce, none) ∧
      (s.run text false).1.errors =
        (visits.flatMap fun v => v.step.diagnostic?.toList).length ∧
      visits.Pairwise (fun u v => u.number < v.number) ∧
      ∀ earlier v later, visits = earlier ++ v :: later → v.Valid earlier := by
  intro s text visits
  have hkeeps := s.announce_keeps
  have htable : s.announce.table.Declares = Knows [] := by
    funext name k
    rw [hkeeps.table, show s.table = Table.empty from rfl]
    simp [Knows, Table.not_declares_empty]
  -- nothing is declared yet, by no visit
  have hpast : s.announce.table.Declares = fun name k => ∃ u ∈ [], Visit.Declares u name k := by
    funext name k
    simp [htable, Knows]
  have hchoose : Yields [] (choose 8) _ := choose_yields 8
  obtain ⟨-, hdeclared⟩ := hchoose (ofBytes data) rfl
  have hstrict : s.announce.options.lenient = false := by
    rw [hkeeps.options]
    rfl
  obtain ⟨hlimit, hvalid⟩ := times_visits ((choose 8 (ofBytes data)).1 + 1)
    (choose 8 (ofBytes data)).2 s.announce 1 [] (by rw [hdeclared]; exact ⟨by simp, .nil⟩) hstrict
    (by rw [hdeclared, htable]) hpast
  obtain ⟨hrun, herrors⟩ := Session.runLines_eq hlimit s.announce 1
  refine ⟨hrun, ?_, (s.announce.visits_pairwise 1 _).2, hvalid⟩
  rw [hkeeps.errors, show s.errors = 0 from rfl, Nat.zero_add] at herrors
  exact herrors

/-- In the program `int x;` and `print(x);`, which is drawn from eleven bytes, the second line is
valid after the first. -/
theorem program_is_valid_print :
    let s := Session.start ⟨false, .none, false, [], false⟩ [] none (.empty [])
    let first : Visit := ⟨s.announce, 1, utf8 "int x;"⟩
    let second : Visit := ⟨s.announce.runLine 1 (utf8 "int x;"), 2, utf8 "print(x);"⟩
    (program (ofBytes [1, 1, 0, 1, 0, 1, 9, 1, 0, 0, 0])).1 = utf8 "int x;\nprint(x);\n" ∧
      second.Valid [first] := by
  intro s first second
  have htext : (program (ofBytes [1, 1, 0, 1, 0, 1, 9, 1, 0, 0, 0])).1 =
      utf8 "int x;\nprint(x);\n" := by
    decide
  have hlines : programLines (utf8 "int x;\nprint(x);\n") = [utf8 "int x;", utf8 "print(x);"] := by
    decide
  have hfirst : Text.trim (utf8 "int x;") = utf8 "int x;" := by decide +kernel
  have hsecond : Text.trim (utf8 "print(x);") = utf8 "print(x);" := by decide +kernel
  obtain ⟨-, -, -, hvalid⟩ := program_is_valid ⟨false, .none, false, [], false⟩ [] none (.empty [])
    [1, 1, 0, 1, 0, 1, 9, 1, 0, 0, 0]
  refine ⟨htext, hvalid [first] second [] ?_⟩
  rw [htext, hlines, Session.visits, hfirst, if_neg (by decide), Session.visits, hsecond,
    if_neg (by decide)]
  rfl

end LineCalc.Sampler
