import LineCalc.Proofs.Line.RoundTrip
import LineCalc.Proofs.Session.Visits
/-!
# What a run puts into the table

Whatever the program, the names in the table are names of the language that are not reserved, the
doubles are finite, and every variable is accounted for by the first line that declared it.

* `Literal.isFinite_of_read?` : a literal that a line can hold is no infinity and always a number;
* `Session.Accounts` : the table is accounted for by the lines run so far;
* `Session.Accounts.step` : one line keeps this;
* `Session.run_accounts` : it holds after every line of a run.
-/
namespace LineCalc

/-! ## Literals that a line can hold -/

/-- A plus or a minus, as it is spelled. -/
theorem Layout.isSign_of_spells {k : TokenKind} {s : Bytes} (hk : k = .plus ∨ k = .minus)
    (h : Spells k s) : IsSign s := by
  rcases hk with rfl | rfl
  · exact .inr (.inl (text_of_spells rfl (by simp) h))
  · exact .inr (.inr (text_of_spells rfl (by simp) h))

namespace Literal

/-- A literal that is spelled is a sign, or none, and a text that starts with a digit. -/
theorem exists_text_eq {l : Literal} (hl : l.IsSigned)
    (h : ∀ t ∈ l.tokens, Layout.Spells t.kind t.lexeme) :
    ∃ s d r, IsSign s ∧ Bytes.isDigit d ∧ l.text = s ++ d :: r := by
  obtain ⟨sign, n⟩ := l
  obtain ⟨hnumber, hsign⟩ := hl
  have hn : n.kind = .number := hnumber
  obtain ⟨d, r, hd, hr⟩ : ∃ d r, Bytes.isDigit d ∧ n.lexeme = d :: r := by
    have hspells := h n (by simp [tokens])
    rw [hn] at hspells
    obtain ⟨d, ds, hd, -, hlexeme | ⟨fs, -, hlexeme⟩⟩ := hspells
    · exact ⟨d, ds, hd, hlexeme⟩
    · exact ⟨d, _, hd, hlexeme⟩
  cases sign with
  | none => exact ⟨[], d, r, .inl rfl, hd, hr⟩
  | some s =>
      have hspells := h s (by simp [tokens])
      exact ⟨s.lexeme, d, r, Layout.isSign_of_spells (hsign s rfl).1 hspells, hd,
        congrArg (s.lexeme ++ ·) hr⟩

/-- **Literals are finite.**  A literal that is spelled stands for no infinity, and always for a
number. -/
theorem isFinite_of_read? {l : Literal} (hl : l.IsSigned)
    (h : ∀ t ∈ l.tokens, Layout.Spells t.kind t.lexeme) {k : Kind} {v : Value}
    (hv : Value.read? k l.text = some v) : v.IsFinite := by
  rintro d rfl
  obtain ⟨s, c, r, hs, hc, htext⟩ := exists_text_eq hl h
  cases k with
  | int =>
      obtain ⟨i, -, hi⟩ := Option.map_eq_some_iff.1 hv
      cases hi
  | double =>
      obtain ⟨d', hd, heq⟩ := Option.map_eq_some_iff.1 hv
      cases heq
      refine isFinite_of_readDouble? ?_ hd
      rw [htext]
      exact readNamed?_eq_none hs hc r

end Literal

/-! ## Statements of lines -/

namespace Reading

variable {lenient : Bool} {number : Int} {line : Bytes}

/-- A declaration that was read stands on its line and declares a name that is not reserved. -/
theorem declaration_of_outcome {type name : Token} {value : Option Literal}
    (h : (ofLine lenient number line).outcome = .ok (.declaration type name value)) :
    type.line = number ∧ Layout.Spells .ident name.lexeme ∧ isReserved name.lexeme = false := by
  have hspelled := spelled_of_outcome h
  rw [outcome_eq_ok_iff] at h
  split at h
  · obtain ⟨type, name, value, heq, -, -, hname, hfree, init, closing, -, -, hunits⟩ := h
    cases heq
    have htype : type ∈ units lenient number .declaration line [] := by simp [hunits]
    have hspells := hspelled name (by simp [Statement.tokens])
    rw [hname] at hspells
    exact ⟨line_of_mem_units htype, hspells, hfree⟩
  · obtain ⟨name, value, heq, -⟩ := h
    cases heq
  · obtain ⟨body, e, -, heq, -⟩ := h
    cases heq

/-- What a line stores is finite if the table holds finite values only. -/
theorem isFinite_of_stores {t : Table} {s : Statement} {v : Value}
    (h : (ofLine lenient number line).outcome = .ok s) (hv : s.Stores t v)
    (ht : ∀ y ∈ t.symbols, y.value.IsFinite) : v.IsFinite := by
  have hspelled := spelled_of_outcome h
  rw [outcome_eq_ok_iff] at h
  split at h
  · obtain ⟨type, name, value, rfl, -, -, -, -, init, closing, hinit, -, -⟩ := h
    cases value with
    | none =>
        obtain ⟨k, -, rfl⟩ := hv
        exact Value.isFinite_zero k
    | some l =>
        obtain ⟨-, -, -, hl⟩ := hinit
        obtain ⟨k, -, hv⟩ := hv
        have hmem : ∀ u ∈ l.tokens, u ∈ (Statement.declaration type name (some l)).tokens :=
          fun u hu => List.mem_cons_of_mem _ (List.mem_cons_of_mem _ hu)
        exact l.isFinite_of_read? hl (fun u hu => hspelled u (hmem u hu)) hv
  · obtain ⟨name, value, rfl, -, hsource, -⟩ := h
    cases hsource with
    | ident source hsource =>
        obtain ⟨y, hy, rfl⟩ := Option.map_eq_some_iff.1 hv
        exact ht y (Table.symbol?_eq_some_iff.1 hy).1
    | number l hl =>
        obtain ⟨w, -, hv⟩ := hv
        exact l.isFinite_of_read? hl (fun u hu => hspelled u (List.mem_cons_of_mem _ hu)) hv
  · obtain ⟨body, e, -, rfl, -⟩ := h
    cases hv

end Reading

/-! ## What accounts for a table -/

/-- The line is a declaration of the name, and it succeeded. -/
def Visit.Introduces (v : Visit) (n : Bytes) : Prop :=
  v.step.outcome = .stored ∧
    ∃ type name value, v.step.statement? = some (.declaration type name value) ∧ name.lexeme = n

namespace Session

/-- Of the visits, this is the first that introduces the name. -/
def IsFirst (past : List Visit) (u : Visit) (n : Bytes) : Prop :=
  u.Introduces n ∧ ∃ before after, past = before ++ u :: after ∧ ∀ w ∈ before, ¬ w.Introduces n

/-- The lines run so far account for the table: its names are names of the language that are not
reserved, its doubles are finite, and each variable has the number of the first line that introduced
it; and the table has all names that were introduced. -/
structure Accounts (past : List Visit) (t : Table) : Prop where
  name : ∀ y ∈ t.symbols, Layout.Spells .ident y.name ∧ isReserved y.name = false
  finite : ∀ y ∈ t.symbols, y.value.IsFinite
  line : ∀ y ∈ t.symbols, ∃ u, IsFirst past u y.name ∧ (u.number : Int) = y.line
  known : ∀ u ∈ past, ∀ n, u.Introduces n → t.symbol? n ≠ none

variable {past : List Visit} {t : Table}

/-- Nothing has to be accounted for in the table without variables. -/
theorem accounts_empty : Accounts [] .empty := by
  refine ⟨?_, ?_, ?_, ?_⟩
  · exact List.forall_mem_nil _
  · exact List.forall_mem_nil _
  · exact List.forall_mem_nil _
  · exact List.forall_mem_nil _

/-- The first visit stays the first. -/
theorem IsFirst.concat {u : Visit} {n : Bytes} (h : IsFirst past u n) (v : Visit) :
    IsFirst (past ++ [v]) u n := by
  obtain ⟨hu, before, after, rfl, hbefore⟩ := h
  exact ⟨hu, before, after ++ [v], by simp, hbefore⟩

/-- A line that introduces no name and changes no variable is accounted for. -/
theorem Accounts.concat (h : Accounts past t) {v : Visit} (hv : v.step.outcome ≠ .stored) :
    Accounts (past ++ [v]) t := by
  refine ⟨h.name, h.finite, ?_, ?_⟩
  · intro y hy
    obtain ⟨u, hu, hline⟩ := h.line y hy
    exact ⟨u, hu.concat v, hline⟩
  · refine List.forall_mem_append.2 ⟨h.known, List.forall_mem_singleton.2 ?_⟩
    intro n hn
    exact absurd hn.1 hv

/-- A line that gives a variable a value is accounted for if the value is finite. -/
theorem Accounts.set (h : Accounts past t) {v : Visit} {n : Bytes} {w : Value} (hw : w.IsFinite)
    (hn : t.symbol? n ≠ none) (hv : ∀ n', v.Introduces n' → n' = n) :
    Accounts (past ++ [v]) (t.set n w) := by
  have hmem : ∀ y ∈ (t.set n w).symbols, ∃ z ∈ t.symbols, y = Table.Symbol.assign n w z := by
    intro y hy
    obtain ⟨z, hz, rfl⟩ := List.mem_map.1 hy
    exact ⟨z, hz, rfl⟩
  refine ⟨?_, ?_, ?_, ?_⟩
  · intro y hy
    obtain ⟨z, hz, rfl⟩ := hmem y hy
    rw [Table.Symbol.name_assign]
    exact h.name z hz
  · intro y hy
    obtain ⟨z, hz, rfl⟩ := hmem y hy
    unfold Table.Symbol.assign
    split
    · exact hw
    · exact h.finite z hz
  · intro y hy
    obtain ⟨z, hz, rfl⟩ := hmem y hy
    obtain ⟨u, hu, hline⟩ := h.line z hz
    refine ⟨u, ?_, ?_⟩
    · rw [Table.Symbol.name_assign]
      exact hu.concat v
    · rw [hline]
      unfold Table.Symbol.assign
      split <;> rfl
  · have hkeeps : ∀ n', t.symbol? n' ≠ none → (t.set n w).symbol? n' ≠ none := by
      intro n' hn'
      rw [Table.symbol?_set]
      split
      · simpa using hn
      · exact hn'
    refine List.forall_mem_append.2 ⟨?_, List.forall_mem_singleton.2 ?_⟩
    · intro u hu n' hn'
      exact hkeeps n' (h.known u hu n' hn')
    · intro n' hn'
      rw [hv n' hn']
      exact hkeeps n hn

/-- A line that introduces a name is accounted for, with its own number. -/
theorem Accounts.push (h : Accounts past t) {v : Visit} {y : Symbol}
    (hnone : t.symbol? y.name = none)
    (hname : Layout.Spells .ident y.name ∧ isReserved y.name = false) (hvalue : y.value.IsFinite)
    (hv : v.Introduces y.name) (hline : (v.number : Int) = y.line)
    (hother : ∀ n, v.Introduces n → n = y.name) : Accounts (past ++ [v]) (t.push y hnone) := by
  refine ⟨?_, ?_, ?_, ?_⟩
  · exact List.forall_mem_append.2 ⟨h.name, List.forall_mem_singleton.2 hname⟩
  · exact List.forall_mem_append.2 ⟨h.finite, List.forall_mem_singleton.2 hvalue⟩
  · refine List.forall_mem_append.2 ⟨?_, List.forall_mem_singleton.2 ?_⟩
    · intro z hz
      obtain ⟨u, hu, hline⟩ := h.line z hz
      exact ⟨u, hu.concat v, hline⟩
    · -- no earlier line introduced the name, or the table would have it
      have hfirst : ∀ w ∈ past, ¬ w.Introduces y.name :=
        fun w hw hintroduces => h.known w hw y.name hintroduces hnone
      exact ⟨v, ⟨hv, past, [], rfl, hfirst⟩, hline⟩
  · refine List.forall_mem_append.2 ⟨?_, List.forall_mem_singleton.2 ?_⟩
    · intro u hu n hn
      rw [Table.symbol?_push]
      split
      · simp
      · exact h.known u hu n hn
    · intro n hn
      rw [Table.symbol?_push, if_pos (hother n hn)]
      simp

/-- **One line** keeps the table accounted for. -/
theorem Accounts.step {v : Visit} (h : Accounts past v.session.table) :
    Accounts (past ++ [v]) v.step.table := by
  obtain ⟨o, ho⟩ := Step.exists_ends v.session.options.lenient v.session.table v.number v.line
  have houtcome : o = v.step.outcome := ho.eq_outcome
  have hkeeps : v.step.table = v.session.table → o ≠ .stored →
      Accounts (past ++ [v]) v.step.table := by
    intro htable hne
    rw [htable]
    exact h.concat (houtcome ▸ hne)
  cases o with
  | refused => exact hkeeps ho.2.2.2 (by simp)
  | failed => exact hkeeps ho.2.2.2 (by simp)
  | shown => exact hkeeps ho.2.2.2 (by simp)
  | stored =>
      obtain ⟨-, -, -, st, w, c, hst, hw, hc, hcall⟩ := ho
      have hst : v.step.statement? = some st := hst
      have hcall : v.session.table.call c = .ok v.step.table := hcall
      have hread : (Reading.ofLine v.session.options.lenient v.number v.line).outcome = .ok st := by
        rw [← Reading.statement?_eq_some_iff, ← hst]
        exact (Step.statement?_ofLine _ _ _ _).symm
      have hfinite : c.value.IsFinite := by
        rw [(Statement.name_of_call? hc).2]
        exact Reading.isFinite_of_stores hread hw h.finite
      have hother : ∀ n, v.Introduces n → n = c.name := by
        rintro n ⟨-, type, name, value, hdeclaration, rfl⟩
        rw [hst] at hdeclaration
        cases hdeclaration
        cases hc
        rfl
      rcases Table.call_ok_cases hcall with ⟨y, hy, -, htable⟩ | ⟨y, hnone, hy, htable⟩
      · rw [htable]
        exact h.set hfinite (by simp [hy]) hother
      · rw [htable]
        cases st with
        | declaration type name value =>
            cases hc
            cases hy
            obtain ⟨hline, hspells, hfree⟩ := Reading.declaration_of_outcome hread
            exact h.push hnone ⟨hspells, hfree⟩ hfinite
              ⟨houtcome.symm, type, name, value, hst, rfl⟩ hline.symm hother
        | assignment name value =>
            cases hc
            cases hy
        | print keyword line body value => cases hc

/-- All lines of a run do. -/
theorem Accounts.visits (lines : List Bytes) : ∀ {past : List Visit} {s : Session} (number : Nat),
    Accounts past s.table → ∀ earlier v later, s.visits number lines = earlier ++ v :: later →
      Accounts (past ++ earlier ++ [v]) (v.session.runLine v.number v.line).table := by
  induction lines with
  | nil =>
      intro past s number h earlier v later hsplit
      exact absurd hsplit (by simp [Session.visits])
  | cons line lines ih =>
      intro past s number h earlier v later hsplit
      rw [Session.visits] at hsplit
      split at hsplit
      · exact ih (number + 1) h earlier v later hsplit
      · have hstep : Accounts (past ++ [⟨s, number, Text.trim line⟩])
            (s.runLine number (Text.trim line)).table := by
          rw [(runLine_spec s number (Text.trim line)).1]
          exact Accounts.step (v := ⟨s, number, Text.trim line⟩) h
        cases earlier with
        | nil =>
            obtain ⟨rfl, -⟩ := List.cons.inj hsplit
            rwa [List.append_nil]
        | cons u earlier =>
            obtain ⟨rfl, hrest⟩ := List.cons.inj hsplit
            have := ih (number + 1) hstep earlier v later hrest
            simpa using this

/-- **Every table of a run is accounted for.**  A run on a fresh session leaves what the last of the
lines that it executes leaves, and each of these is the line of its number in the program, from one
on.  After each of them, every variable of the table

* has a name of the language, a letter and then letters and digits, that is not reserved;
* holds no infinity, and a number;
* has the number of the first line executed so far that is a declaration of its name and
  succeeded. -/
theorem run_accounts (options : Options) (runId : Bytes) (limit : Option Nat)
    (workspace : Workspace) (text : Bytes) (isCancelled : Bool) :
    let s := Session.start options runId limit workspace
    let lines := programLines text
    let executed := s.announce.executed isCancelled 1 lines
    (s.run text isCancelled).1 =
        executed.foldl (fun _ v => v.session.runLine v.number v.line) s.announce ∧
      (∀ u ∈ executed, 1 ≤ u.number ∧
        ∃ line, lines[u.number - 1]? = some line ∧ Text.trim line = u.line) ∧
      ∀ earlier v later, executed = earlier ++ v :: later →
        ∀ y ∈ (v.session.runLine v.number v.line).table.symbols,
          (∃ b r, y.name = b :: r ∧ Bytes.isLetter b ∧ ∀ c ∈ r, Bytes.isWord c) ∧
          isReserved y.name = false ∧ (∀ d, y.value = .double d → d.isFinite) ∧
          ∃ u, IsFirst (earlier ++ [v]) u y.name ∧ (u.number : Int) = y.line := by
  intro s lines executed
  refine ⟨(runLines_executed isCancelled s.announce 1 lines).1, fun u hu => executed_line hu, ?_⟩
  intro earlier v later hsplit y hy
  have hempty : Accounts [] s.announce.table := by
    rw [s.announce_keeps.table]
    exact accounts_empty
  have haccounts : Accounts (earlier ++ [v]) (v.session.runLine v.number v.line).table := by
    have hvisits : ∃ ls, s.announce.visits 1 ls = earlier ++ v :: later := by
      simp only [executed, Session.executed] at hsplit
      split at hsplit
      · exact absurd hsplit (by simp)
      · exact ⟨_, hsplit⟩
    obtain ⟨ls, hls⟩ := hvisits
    exact Accounts.visits ls 1 hempty earlier v later hls
  obtain ⟨hname, hfree⟩ := haccounts.name y hy
  exact ⟨hname, hfree, haccounts.finite y hy, haccounts.line y hy⟩

/-- The program `int x;`, a blank line and `int x = 7;`: after its third line `x` has the number of
the first. -/
theorem run_accounts_again :
    let s := Session.start ⟨false, .none, false, [], false⟩ [] none (.empty [])
    let first : Visit := ⟨s.announce, 1, utf8 "int x;"⟩
    let second : Visit := ⟨s.announce.runLine 1 (utf8 "int x;"), 3, utf8 "int x = 7;"⟩
    let y : Symbol := ⟨utf8 "x", .int 7, 1⟩
    s.announce.executed false 1 (programLines (utf8 "int x;\n\nint x = 7;")) = [first, second] ∧
      y ∈ (second.session.runLine second.number second.line).table.symbols ∧
      ∃ u, IsFirst [first, second] u y.name ∧ (u.number : Int) = 1 := by
  intro s first second y
  have hlines : programLines (utf8 "int x;\n\nint x = 7;") =
      [utf8 "int x;", [], utf8 "int x = 7;"] := by
    decide
  have hexecuted : s.announce.executed false 1 (programLines (utf8 "int x;\n\nint x = 7;")) =
      [first, second] := by
    have hshort : [utf8 "int x;", [], utf8 "int x = 7;"].takeWhile (·.length < lineLimit) =
        [utf8 "int x;", [], utf8 "int x = 7;"] := by
      decide
    have hfirst : Text.trim (utf8 "int x;") = utf8 "int x;" := by decide +kernel
    have hblank : Text.trim [] = [] := by decide +kernel
    have hsecond : Text.trim (utf8 "int x = 7;") = utf8 "int x = 7;" := by decide +kernel
    rw [hlines, executed, if_neg (by decide), hshort, visits, hfirst, if_neg (by decide), visits,
      hblank, if_pos (by decide), visits, hsecond, if_neg (by decide)]
    rfl
  have hy : y ∈ (second.session.runLine second.number second.line).table.symbols := by
    decide +kernel
  obtain ⟨-, -, haccounts⟩ := run_accounts ⟨false, .none, false, [], false⟩ [] none (.empty [])
    (utf8 "int x;\n\nint x = 7;") false
  exact ⟨hexecuted, hy, (haccounts [first] second [] hexecuted y hy).2.2.2⟩

end Session

end LineCalc
