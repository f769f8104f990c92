import LineCalc.CommandLine.Basic
import LineCalc.Proofs.Except
import LineCalc.Proofs.Session.End
/-!
# Exit statuses

A call is refused with the status two, or answered with help, before anything is run; all other
calls run their program and end with zero if the run goes through and with one if it does not.

* `Call.IsRefused` : why a call is refused;
* `Call.AsksForHelp.run_eq`, `Call.IsRefused.exists_run_eq` : what such a call leaves;
* `Call.Accepts.run_eq` : other calls run their program;
* `Call.exit_status` : the three statuses.
-/
namespace LineCalc

namespace Call

/-! ## Calls that run nothing -/

/-- The arguments ask for help. -/
def AsksForHelp (c : Call) : Prop := Arguments.ofList c.args = .error .help

/-- One of the layers of the settings is rejected: the file, the environment or the flags, each of
them if those before it are accepted. -/
inductive RejectsLayer (c : Call) (a : Arguments) : Prop where
  | file {e : SetupError} (h : baseSettings c.workspace a.config = .error e)
  | environment {s : Settings} {e : SettingsError}
      (hfile : baseSettings c.workspace a.config = .ok s)
      (h : s.apply (.ofEnvironment c.environment) "environment" = .error e)
  | flags {s s' : Settings} {e : SettingsError}
      (hfile : baseSettings c.workspace a.config = .ok s)
      (henvironment : s.apply (.ofEnvironment c.environment) "environment" = .ok s')
      (h : s'.apply a.layer "command line" = .error e)

/-- The call is refused: its flags cannot be read, there is more than one other argument, or a layer
of its settings is rejected. -/
inductive IsRefused (c : Call) : Prop where
  | flags {e : FlagError} (hargs : Arguments.ofList c.args = .error e) (hne : e ≠ .help)
  | arguments {a : Arguments} (hargs : Arguments.ofList c.args = .ok a) (h : 1 < a.rest.length)
  | settings {a : Arguments} (hargs : Arguments.ofList c.args = .ok a) (h : c.RejectsLayer a)

/-- A call has no settings just if one of their layers is rejected. -/
theorem exists_settings_error_iff {c : Call} {a : Arguments} :
    (∃ e, c.settings a = .error e) ↔ c.RejectsLayer a := by
  unfold settings
  constructor
  · rintro ⟨e, h⟩
    rcases Except.bind_eq_error_iff.1 h with h | ⟨s, hfile, h⟩
    · exact .file h
    rcases Except.bind_eq_error_iff.1 h with h | ⟨s', henvironment, h⟩
    · obtain ⟨f, hf, -⟩ := Except.mapError_eq_error_iff.1 h
      exact .environment hfile hf
    · obtain ⟨f, hf, -⟩ := Except.mapError_eq_error_iff.1 h
      exact .flags hfile (Except.mapError_eq_ok_iff.1 henvironment) hf
  · intro h
    cases h with
    | file h => exact ⟨_, Except.bind_eq_error_iff.2 (.inl h)⟩
    | @environment s e hfile h =>
        refine ⟨.layer e, Except.bind_eq_error_iff.2 (.inr ⟨_, hfile, ?_⟩)⟩
        exact Except.bind_eq_error_iff.2 (.inl (Except.mapError_eq_error_iff.2 ⟨_, h, rfl⟩))
    | @flags s s' e hfile henvironment h =>
        refine ⟨.layer e, Except.bind_eq_error_iff.2 (.inr ⟨_, hfile, ?_⟩)⟩
        refine Except.bind_eq_error_iff.2 (.inr ⟨_, Except.mapError_eq_ok_iff.2 henvironment, ?_⟩)
        exact Except.mapError_eq_error_iff.2 ⟨_, h, rfl⟩

/-- The other call has the same arguments, the same environment and the same settings file.  Its
program and its other files may differ. -/
structure SetUpAlike (c c' : Call) : Prop where
  args : c'.args = c.args
  environment : c'.environment = c.environment
  file : ∀ a, Arguments.ofList c.args = .ok a →
    baseSettings c'.workspace a.config = baseSettings c.workspace a.config

/-- A call is set up as itself. -/
theorem SetUpAlike.refl (c : Call) : c.SetUpAlike c := ⟨rfl, rfl, fun _ _ => rfl⟩

/-- **A call for help** is answered with the help, whatever the program is. -/
theorem AsksForHelp.run_eq {c c' : Call} (h : c.AsksForHelp) (halike : c.SetUpAlike c') :
    c'.run = c'.refuse 0 usage := by
  unfold run
  rw [halike.args, h]

/-- **A refused call** has the status two and its errors, whatever the program is. -/
theorem IsRefused.exists_run_eq {c : Call} (h : c.IsRefused) :
    ∃ errors, ∀ c', c.SetUpAlike c' → c'.run = c'.refuse 2 errors := by
  have hmany : ∀ {a : Arguments}, Arguments.ofList c.args = .ok a → 1 < a.rest.length →
      ∀ c', c.SetUpAlike c' → c'.run = c'.refuse 2 usage := by
    intro a hargs hrest c' halike
    unfold run
    rw [halike.args, hargs]
    exact if_pos hrest
  cases h with
  | @flags e hargs hne =>
      refine ⟨e.message ++ utf8 "\n" ++ usage, fun c' halike => ?_⟩
      unfold run
      rw [halike.args, hargs]
      cases e with
      | help => exact absurd rfl hne
      | _ => rfl
  | arguments hargs hrest => exact ⟨_, hmany hargs hrest⟩
  | @settings a hargs hlayer =>
      obtain ⟨e, he⟩ := exists_settings_error_iff.2 hlayer
      by_cases hrest : 1 < a.rest.length
      · exact ⟨_, hmany hargs hrest⟩
      · refine ⟨utf8 "Error: " ++ (invalidSettings e).message ++ utf8 "\n", fun c' halike => ?_⟩
        have hsettings : c'.settings a = .error e := by
          rw [← he, Call.settings, Call.settings, halike.file a hargs, halike.environment]
        unfold run
        rw [halike.args, hargs]
        simp only [if_neg hrest, hsettings]
        rfl

/-! ## Calls that run a program -/

/-- A call that is accepted: its arguments, and its settings. -/
structure Accepts (c : Call) (a : Arguments) (s : Settings) : Prop where
  args : Arguments.ofList c.args = .ok a
  rest : a.rest.length ≤ 1
  settings : c.settings a = .ok s

/-- A call that is neither refused nor answered with help is accepted. -/
theorem exists_accepts {c : Call} (hrefused : ¬ c.IsRefused) (hhelp : ¬ c.AsksForHelp) :
    ∃ a s, c.Accepts a s := by
  cases hargs : Arguments.ofList c.args with
  | error e =>
      by_cases he : e = .help
      · subst he
        exact absurd hargs hhelp
      · exact absurd (.flags hargs he) hrefused
  | ok a =>
      have hrest : a.rest.length ≤ 1 := by
        by_contra h
        exact hrefused (.arguments hargs (Nat.not_le.1 h))
      cases hsettings : c.settings a with
      | error e =>
          have hlayer := exists_settings_error_iff.1 ⟨e, hsettings⟩
          exact absurd (.settings hargs hlayer) hrefused
      | ok s => exact ⟨a, s, hargs, hrest, hsettings⟩

/-- **An accepted call** runs its program. -/
theorem Accepts.run_eq {c : Call} {a : Arguments} {s : Settings} (h : c.Accepts a s) :
    c.run = c.execute a s := by
  unfold run
  rw [h.args]
  simp only [if_neg (Nat.not_lt.2 h.rest), h.settings]

/-- All errors of a run have the same status. -/
theorem statusOf_some (e : RunError) : statusOf (some e) = 1 := by
  cases e with
  | sourceNotFound path => rfl
  | _ => rfl

/-- A run has the status zero just if it has no error. -/
theorem statusOf_eq_zero_iff (e : Option RunError) : statusOf e = 0 ↔ e = none := by
  cases e with
  | none => simp [statusOf]
  | some e => simp [statusOf_some]

/-- An accepted call does not have the status two. -/
theorem statusOf_le_one (e : Option RunError) : statusOf e = 0 ∨ statusOf e = 1 := by
  cases e with
  | none => exact .inl rfl
  | some e => exact .inr (statusOf_some e)

/-- The status of an accepted call is that of its run. -/
theorem Accepts.exitStatus_eq {c : Call} {a : Arguments} {s : Settings} (h : c.Accepts a s) :
    c.run.exitStatus =
      statusOf ((c.session a s).runFile (program a s) c.isCancelled).2 := by
  rw [h.run_eq]
  rfl

/-- **The exit status.**  It is two just if the call is refused.  A refused call, or one for help,
which has the status zero, writes nothing to its output and changes no file, and its program plays
no part in what it does.  Any other call has the status zero if its program can be opened, the run
of it has no error, the listing is written and the variables are stored, and one otherwise; and it
has the same status without the lines that are complained about, unless their complaints fill up the
output so that the listing cannot be written. -/
theorem exit_status (c : Call) :
    (c.run.exitStatus = 2 ↔ c.IsRefused) ∧
    (c.AsksForHelp → c.run.exitStatus = 0) ∧
    (c.IsRefused ∨ c.AsksForHelp → c.run.output = [] ∧ c.run.workspace = c.workspace ∧
      ∀ c', c.SetUpAlike c' → c'.run = { c.run with workspace := c'.workspace }) ∧
    (¬ c.IsRefused → ¬ c.AsksForHelp → ∃ a s, c.Accepts a s ∧
      let d := c.session a s
      let path := program a s
      (c.run.exitStatus = 0 ↔ d.GoesThrough path c.isCancelled) ∧
      (c.run.exitStatus = 0 ∨ c.run.exitStatus = 1) ∧
      (∀ place text other?, d.workspace.openFile path = .ok place →
        Workspace.read path place = .ok text →
        let started := { d with source := path }
        let text' := replaceLines other? text
        Session.Silences other? started text c.isCancelled →
        started.ListsAlike text text' c.isCancelled →
        statusOf (started.runText text' c.isCancelled).2 = c.run.exitStatus)) := by
  have hrefused : c.IsRefused → c.run.exitStatus = 2 := by
    intro h
    obtain ⟨errors, hrun⟩ := h.exists_run_eq
    rw [hrun c (.refl c)]
    rfl
  have hhelp : c.AsksForHelp → c.run.exitStatus = 0 := by
    intro h
    rw [h.run_eq (.refl c)]
    rfl
  refine ⟨⟨?_, hrefused⟩, hhelp, ?_, ?_⟩
  · intro htwo
    by_contra hnot
    have hnohelp : ¬ c.AsksForHelp := fun h => by rw [hhelp h] at htwo; cases htwo
    obtain ⟨a, s, haccepts⟩ := exists_accepts hnot hnohelp
    rw [haccepts.exitStatus_eq] at htwo
    have := statusOf_le_one ((c.session a s).runFile (program a s) c.isCancelled).2
    omega
  · rintro (h | h)
    · obtain ⟨errors, hrun⟩ := h.exists_run_eq
      rw [hrun c (.refl c)]
      exact ⟨rfl, rfl, hrun⟩
    · rw [h.run_eq (.refl c)]
      exact ⟨rfl, rfl, fun c' halike => h.run_eq halike⟩
  · intro hnot hnohelp
    obtain ⟨a, s, haccepts⟩ := exists_accepts hnot hnohelp
    refine ⟨a, s, haccepts, ?_⟩
    intro d path
    rw [haccepts.exitStatus_eq]
    refine ⟨?_, statusOf_le_one _, ?_⟩
    · rw [statusOf_eq_zero_iff]
      exact Session.runFile_eq_none_iff d path c.isCancelled
    · intro place text other? hopen hread started text' hsilences hlisting
      rw [Session.runFile_of_read hopen hread,
        Session.runText_without_complaints hsilences hlisting]

/-- The call of the program `x = y;` and `int x;`, whose first line is complained about, has the
status zero, and so has that of a blank line and `int x;`. -/
theorem exit_status_complaint :
    let text := utf8 "x = y;\nint x;"
    let other? : Nat → Option Bytes := fun i => if i = 1 then some (utf8 " ") else none
    let c : Call :=
      { args := [], environment := [], output := .file, runId := [], isCancelled := false
        workspace := (Workspace.empty []).addFile Settings.defaultInput (.text text) }
    ¬ c.IsRefused ∧ ¬ c.AsksForHelp ∧ ∃ a s, c.Accepts a s ∧
      (c.session a s).GoesThrough (program a s) c.isCancelled ∧
      replaceLines other? text = utf8 " \nint x;" ∧
      Session.Silences other? { c.session a s with source := program a s } text c.isCancelled ∧
      statusOf (({ c.session a s with source := program a s } : Session).runText
        (replaceLines other? text) c.isCancelled).2 = 0 := by
  intro text other? c
  have hzero : c.run.exitStatus = 0 := by decide +kernel
  obtain ⟨htwo, -, -, hruns⟩ := exit_status c
  have hrefused : ¬ c.IsRefused := fun h => absurd (htwo.2 h) (by rw [hzero]; decide)
  have hhelp : ¬ c.AsksForHelp := fun h => by cases h
  obtain ⟨a, s, haccepts, hthrough, -, hsilent⟩ := hruns hrefused hhelp
  have ha : a = {} := by
    cases haccepts.args
    rfl
  subst ha
  have hs : s = .default := by
    have h : (c.settings {}).toOption = some .default := by decide +kernel
    rw [haccepts.settings] at h
    exact Option.some.inj h
  subst hs
  have hopen : c.workspace.openFile Settings.defaultInput =
      .ok (.file [Settings.defaultInput] (.text text)) := rfl
  have hlines : programLines text = [utf8 "x = y;", utf8 "int x;"] := by decide
  have hsilences : Session.Silences other?
      { c.session {} .default with source := program {} .default } text false := by
    constructor
    · intro i l hl
      simp only [other?] at hl
      split at hl
      · cases hl
        exact ⟨by decide +kernel, by decide, by decide⟩
      · cases hl
    · intro i hi
      simp only [other?] at hi
      split at hi
      · next h1 =>
        have hfirst : Text.trim (utf8 "x = y;") = utf8 "x = y;" := by decide +kernel
        rw [hlines, Session.executed, if_neg (by decide), List.takeWhile_cons_of_pos (by decide),
          Session.visits, hfirst, if_neg (by decide)]
        exact ⟨_, List.mem_cons_self, h1.symm, by decide +kernel⟩
      · cases hi
  refine ⟨hrefused, hhelp, {}, .default, haccepts, hthrough.1 hzero, by decide, hsilences, ?_⟩
  rw [← hzero]
  exact hsilent _ text other? hopen rfl hsilences (.inl rfl)

end Call

end LineCalc
