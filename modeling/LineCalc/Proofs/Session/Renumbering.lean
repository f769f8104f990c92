import LineCalc.Proofs.Line.Renumbering
import LineCalc.Proofs.Session.Output
/-!
# Runs under other numbers

A run numbers its lines from one, and the table remembers the lines of the declarations.  Neither
has a say in what the lines do: a program that is run in two parts does what it does as a whole.

* `Session.Alike` : sessions with the same options and tables that are alike;
* `Session.runLine_alike` : one line leaves such sessions alike and does the same in both;
* `Session.visits_alike` : so do all lines, whatever number they start with;
* `Session.runs_differ_in_numbers_only` : the two runs of one part each, and the run of the whole.
-/
namespace LineCalc

/-! ## One line -/

/-- Both visits are to the same line, under their own numbers, and did the same. -/
structure Visit.Renumbered (v v' : Visit) : Prop where
  line : v'.line = v.line
  options : v'.session.options = v.session.options
  step : Step.Renumbered v.number v'.number v.step v'.step

namespace Session

/-- The sessions have the same options, and tables that are alike. -/
structure Alike (s s' : Session) : Prop where
  table : s.table.Alike s'.table
  options : s'.options = s.options

/-- What differs in output, log and source only is alike. -/
theorem Keeps.alike {s s' : Session} (h : Keeps s s') : s.Alike s' :=
  ⟨congrArg Table.bindings h.table, h.options⟩

/-- Being alike is mutual. -/
theorem Alike.symm {s s' : Session} (h : s.Alike s') : s'.Alike s :=
  ⟨Eq.symm h.table, h.options.symm⟩

/-- Sessions that are like a third one are alike. -/
theorem Alike.trans {s₁ s₂ s₃ : Session} (h : s₁.Alike s₂) (h' : s₂.Alike s₃) : s₁.Alike s₃ :=
  ⟨Eq.trans h'.table h.table, h'.options.trans h.options⟩

/-- Announcing a run leaves the session alike. -/
theorem alike_announce (s : Session) : s.Alike s.announce := s.announce_keeps.alike

/-- **One line** does the same in sessions that are alike, and leaves them alike. -/
theorem runLine_alike {s s' : Session} (h : s.Alike s') {m n : Nat} (hm : 0 < m) (hn : 0 < n)
    (line : Bytes) :
    Visit.Renumbered ⟨s, m, line⟩ ⟨s', n, line⟩ ∧ (s.runLine m line).Alike (s'.runLine n line) := by
  have hm : (m : Int) ≠ 0 := by omega
  have hn : (n : Int) ≠ 0 := by omega
  have hstep : Step.Renumbered m n (Step.ofLine s.options.lenient s.table m line)
      (Step.ofLine s'.options.lenient s'.table n line) := by
    rw [h.options]
    exact Step.ofLine_renumbered s.options.lenient hm hn h.table line
  obtain ⟨htable, hoptions, -⟩ := runLine_spec s m line
  obtain ⟨htable', hoptions', -⟩ := runLine_spec s' n line
  refine ⟨⟨rfl, h.options, hstep⟩, ⟨?_, ?_⟩⟩
  · rw [htable, htable']
    exact hstep.table
  · rw [hoptions, hoptions', h.options]

/-! ## All lines -/

/-- **All lines** do the same in sessions that are alike, whatever number they start with, and leave
them alike. -/
theorem visits_alike (lines : List Bytes) : ∀ {s s' : Session} {m n : Nat}, s.Alike s' →
    0 < m → 0 < n →
    List.Forall₂ Visit.Renumbered (s.visits m lines) (s'.visits n lines) ∧
      (s.afterVisits (s.visits m lines)).Alike (s'.afterVisits (s'.visits n lines)) := by
  induction lines with
  | nil => exact fun h _ _ => ⟨.nil, h⟩
  | cons line lines ih =>
      intro s s' m n h hm hn
      rw [visits, visits]
      split
      · exact ih h m.succ_pos n.succ_pos
      · obtain ⟨hvisit, hafter⟩ := runLine_alike h hm hn (Text.trim line)
        obtain ⟨hvisits, hend⟩ := ih hafter m.succ_pos n.succ_pos
        exact ⟨.cons hvisit hvisits, hend⟩

/-- What was done the same has the same output and complaints with the same codes. -/
theorem output_of_renumbered {vs vs' : List Visit} (h : List.Forall₂ Visit.Renumbered vs vs') :
    vs'.flatMap (·.step.output) = vs.flatMap (·.step.output) ∧
      (vs'.flatMap fun v => v.step.diagnostic?.toList).map Diagnostic.code =
        (vs.flatMap fun v => v.step.diagnostic?.toList).map Diagnostic.code := by
  induction h with
  | nil => exact ⟨rfl, rfl⟩
  | @cons v v' vs vs' hv _ ih =>
      obtain ⟨houtput, hcodes⟩ := ih
      have hcode : v'.step.diagnostic?.toList.map Diagnostic.code =
          v.step.diagnostic?.toList.map Diagnostic.code := by
        have hrel := hv.step.diagnostic
        generalize v.step.diagnostic? = d at hrel
        generalize v'.step.diagnostic? = d' at hrel
        cases hrel with
        | none => rfl
        | some hd => exact congrArg (fun c => [c]) hd.code
      refine ⟨?_, ?_⟩
      · rw [List.flatMap_cons, List.flatMap_cons, hv.step.output, houtput]
      · rw [List.flatMap_cons, List.flatMap_cons, List.map_append, List.map_append, hcode, hcodes]

/-! ## A program in two parts -/

/-- The lines of the whole program: those of the first part, then, under the numbers after them and
the blank lines, those of the second. -/
theorem visits_joined {a : Bytes} (ha : a = [] ∨ a.getLast? = some 0x0a) {blanks : List Bytes}
    (hblanks : ∀ l ∈ blanks, IsBlankLine l) (b : Bytes) (s : Session) :
    s.visits 1 (programLines (a ++ blanks.flatMap (· ++ [0x0a]) ++ b)) =
      s.visits 1 (programLines a) ++
        (s.afterVisits (s.visits 1 (programLines a))).visits
          (1 + (programLines a).length + blanks.length) (programLines b) := by
  have hne : ∀ l ∈ blanks, ∀ b ∈ l, b ≠ 0x0a := fun l hl => (hblanks l hl).ne_break
  rw [visits_programLines, List.append_assoc, splitAt_append_of_ended ha,
    Bytes.splitAt_flatMap_append hne, visits_append,
    visits_append_of_blank fun l hl => (hblanks l hl).trim_eq, visits_programLines _ _ b]

/-- Its lines are short if those of its parts are. -/
theorem length_lt_joined {a b : Bytes} (ha : a = [] ∨ a.getLast? = some 0x0a) {blanks : List Bytes}
    (hblanks : ∀ l ∈ blanks, IsBlankLine l)
    (hshort : ∀ line ∈ programLines a ++ programLines b, line.length < lineLimit) :
    ∀ line ∈ programLines (a ++ blanks.flatMap (· ++ [0x0a]) ++ b), line.length < lineLimit := by
  have hne : ∀ l ∈ blanks, ∀ b ∈ l, b ≠ 0x0a := fun l hl => (hblanks l hl).ne_break
  obtain ⟨hshorta, hshortb⟩ := List.forall_mem_append.1 hshort
  rw [length_lt_of_programLines, List.append_assoc, splitAt_append_of_ended ha,
    Bytes.splitAt_flatMap_append hne]
  refine List.forall_mem_append.2 ⟨hshorta, List.forall_mem_append.2 ⟨?_, ?_⟩⟩
  · exact fun l hl => (hblanks l hl).length_lt
  · exact length_lt_of_programLines.1 hshortb

/-- **Numbers of lines are numbers only.**  Let no line of two programs be too long, and let the
first one be empty or end with a line break.  Run one after the other, and run as one program with
any number of blank lines between them, on sessions with the same table, options and errors:

* all runs end regularly;
* the same variables have the same values, in the same order;
* as many errors were counted;
* the same lines were written, and the complaints have the same codes, in the same order;
* line by line, what was done differs in numbers of lines only;
* the output is what the lines write, one behind the other. -/
theorem runs_differ_in_numbers_only {s s' : Session} (h : Keeps s s') {a b : Bytes}
    (ha : a = [] ∨ a.getLast? = some 0x0a) {blanks : List Bytes}
    (hblanks : ∀ l ∈ blanks, IsBlankLine l)
    (hshort : ∀ line ∈ programLines a ++ programLines b, line.length < lineLimit) :
    let joined := a ++ blanks.flatMap (· ++ [0x0a]) ++ b
    let s₁ := (s.run a false).1
    let s₂ := (s₁.run b false).1
    let s₃ := (s'.run joined false).1
    let two := s.announce.visits 1 (programLines a) ++ s₁.announce.visits 1 (programLines b)
    let one := s'.announce.visits 1 (programLines joined)
    ((s.run a false).2 = none ∧ (s₁.run b false).2 = none ∧ (s'.run joined false).2 = none) ∧
    s₃.table.bindings = s₂.table.bindings ∧
    s₃.errors = s₂.errors ∧
    one.flatMap (·.step.output) = two.flatMap (·.step.output) ∧
    (one.flatMap fun v => v.step.diagnostic?.toList).map Diagnostic.code =
      (two.flatMap fun v => v.step.diagnostic?.toList).map Diagnostic.code ∧
    List.Forall₂ Visit.Renumbered two one ∧
    s₂.output = (two.flatMap Visit.written).foldl Output.write s.output ∧
    s₃.output = (one.flatMap Visit.written).foldl Output.write s'.output := by
  intro joined s₁ s₂ s₃ two one
  obtain ⟨hshorta, hshortb⟩ := List.forall_mem_append.1 hshort
  obtain ⟨hrun₁, herrors₁, houtput₁⟩ := run_visits hshorta s
  obtain ⟨hrun₂, herrors₂, houtput₂⟩ := run_visits hshortb s₁
  obtain ⟨hrun₃, herrors₃, houtput₃⟩ := run_visits (length_lt_joined ha hblanks hshort) s'
  -- announcing the runs is all that happens before the first parts and between the parts
  have hstart : s.announce.Alike s'.announce :=
    (s.alike_announce.symm.trans h.alike).trans s'.alike_announce
  obtain ⟨hfirst, hmiddle⟩ := visits_alike (programLines a) hstart Nat.one_pos Nat.one_pos
  have hs₁ : s₁ = s.announce.afterVisits (s.announce.visits 1 (programLines a)) :=
    congrArg Prod.fst hrun₁
  rw [← hs₁] at hmiddle
  have hbetween := s₁.alike_announce.symm.trans hmiddle
  obtain ⟨hsecond, hend⟩ := visits_alike (n := 1 + (programLines a).length + blanks.length)
    (programLines b) hbetween Nat.one_pos (by omega)
  have hone : one = s'.announce.visits 1 (programLines a) ++
      (s'.announce.afterVisits (s'.announce.visits 1 (programLines a))).visits
        (1 + (programLines a).length + blanks.length) (programLines b) :=
    visits_joined ha hblanks b s'.announce
  have hvisits : List.Forall₂ Visit.Renumbered two one := by
    rw [hone]
    exact List.rel_append hfirst hsecond
  obtain ⟨hlines, hcodes⟩ := output_of_renumbered hvisits
  refine ⟨⟨congrArg Prod.snd hrun₁, congrArg Prod.snd hrun₂, congrArg Prod.snd hrun₃⟩, ?_, ?_,
    hlines, hcodes, hvisits, ?_, houtput₃⟩
  · have hs₃ : s₃ = s'.announce.afterVisits one := congrArg Prod.fst hrun₃
    rw [hs₃, hone, show s₂ = _ from congrArg Prod.fst hrun₂, afterVisits, List.foldl_append]
    exact hend.table
  · have hlength := congrArg List.length hcodes
    rw [List.length_map, List.length_map, List.flatMap_append, List.length_append] at hlength
    rw [show s₃.errors = _ from herrors₃, show s₂.errors = _ from herrors₂,
      show s₁.errors = _ from herrors₁, h.errors, Nat.add_assoc]
    exact congrArg (s.errors + ·) hlength
  · rw [List.flatMap_append, List.foldl_append, ← houtput₁]
    exact houtput₂

/-- `x` is declared again in the second program, and the complaint tells the lines of that program.
It tells those of the whole program if both are run as one, with a blank line between them. -/
theorem runs_differ_in_numbers_only_redeclared :
    let s := Session.start ⟨false, .none, false, [], false⟩ [] none (.empty [])
    let a := utf8 "int y;\n"
    let b := utf8 "int x;\ndouble x;\nprint(x);"
    let blanks := [utf8 " "]
    let s₂ := ((s.run a false).1.run b false).1
    let s₃ := (s.run (a ++ blanks.flatMap (· ++ [0x0a]) ++ b) false).1
    (Keeps s s ∧ a.getLast? = some 0x0a ∧ (∀ l ∈ blanks, IsBlankLine l) ∧
      ∀ line ∈ programLines a ++ programLines b, line.length < lineLimit) ∧
    (s₃.table.bindings = s₂.table.bindings ∧ s₃.errors = s₂.errors) ∧
    s₂.output.text = utf8 "- line 2: error [T001]: type mismatch: x is already declared as int " ++
      utf8 "(line 1), cannot redeclare as double\nprint(x);\nResult: 0\n\n" ∧
    s₃.output.text = utf8 "- line 4: error [T001]: type mismatch: x is already declared as int " ++
      utf8 "(line 3), cannot redeclare as double\nprint(x);\nResult: 0\n\n" := by
  intro s a b blanks s₂ s₃
  have hkeeps : Keeps s s := ⟨rfl, rfl, rfl⟩
  have hended : a.getLast? = some 0x0a := by decide
  have hblanks : ∀ l ∈ blanks, IsBlankLine l :=
    List.forall_mem_singleton.2 ⟨by decide +kernel, by decide, by decide⟩
  have hshort : ∀ line ∈ programLines a ++ programLines b, line.length < lineLimit := by
    have hlines : programLines a ++ programLines b =
        [utf8 "int y;", utf8 "int x;", utf8 "double x;", utf8 "print(x);"] := by
      decide
    rw [hlines]
    decide
  obtain ⟨-, hbindings, herrors, -⟩ :=
    runs_differ_in_numbers_only hkeeps (.inr hended) hblanks hshort
  exact ⟨⟨hkeeps, hended, hblanks, hshort⟩, ⟨hbindings, herrors⟩, by decide +kernel,
    by decide +kernel⟩

end Session

end LineCalc
