import LineCalc.Proofs.Session.Contents
import LineCalc.Proofs.Table.Listing
/-!
# What the listing of a run shows

A run only ever puts words and finite values into the table, so that the listing at its end loses
nothing.

* `Table.Reachable` : what runs of programs can leave, one after the other;
* `Table.Reachable.isPlain` : such a table can be listed without loss;
* `Table.Reachable.runFile` : running the program of a file leaves such a table, too;
* `Table.Reachable.dump_loses_nothing` : its dump shows all its names and values.
-/
namespace LineCalc

/-- A table that programs can leave: runs start from no variables, or go on from what earlier runs
left, each with its own options. -/
inductive Table.Reachable : Table → Prop where
  | empty : Reachable .empty
  | run {s : Session} (h : Reachable s.table) (text : Bytes) (isCancelled : Bool) :
      Reachable (s.run text isCancelled).1.table

namespace Session

/-- Lines that are run keep the table accounted for. -/
theorem exists_accounts_runLines (isCancelled : Bool) (lines : List Bytes) :
    ∀ (s : Session) (number : Nat), (∃ past, Accounts past s.table) →
      ∃ past, Accounts past (s.runLines isCancelled number lines).1.table := by
  induction lines with
  | nil => exact fun s number h => h
  | cons line lines ih =>
      intro s number h
      unfold runLines
      split
      · exact h
      · split
        · exact h
        · apply ih
          split
          · exact h
          · obtain ⟨past, h⟩ := h
            rw [(runLine_spec s number (Text.trim line)).1]
            exact ⟨_, Accounts.step (v := ⟨s, number, Text.trim line⟩) h⟩

/-- Notes keep the table. -/
theorem noteRun_table (s : Session) (message : Bytes) : (s.noteRun message).table = s.table := by
  obtain ⟨log, hnote⟩ := s.exists_note (utf8 "run " ++ s.runId ++ utf8 ": " ++ message)
  rw [noteRun, hnote]
  rfl

/-- Storing the variables keeps them. -/
theorem exportRows_table (s : Session) (isCancelled : Bool) :
    (s.exportRows isCancelled).1.table = s.table := by
  unfold exportRows
  extract_lets path
  split
  · rfl
  · split
    · rfl
    · exact noteRun_table _ _

/-- Ending a run keeps the table. -/
theorem finish_table (s : Session) (isCancelled : Bool) :
    (s.finish isCancelled).1.table = s.table := by
  unfold finish writeListing
  split
  · rfl
  · next s' hs' =>
      rw [exportRows_table]
      split at hs'
      · cases hs'
        rfl
      · split at hs'
        · cases hs'
          rfl
        · cases hs'

end Session

namespace Table

/-- What is left of the program in a file. -/
theorem Reachable.runFile {s : Session} (h : s.table.Reachable) (path : Bytes)
    (isCancelled : Bool) : (s.runFile path isCancelled).1.table.Reachable := by
  have hrun : ∀ text, ({ s with source := path }.run text isCancelled).1.table.Reachable :=
    fun text => .run (s := { s with source := path }) h text isCancelled
  unfold Session.runFile
  extract_lets s₁
  split
  · -- without the file nothing is run, but the run is ended and the variables are listed
    next e _ =>
      extract_lets s₂
      have hended : (s₂.finish isCancelled).1.table.Reachable := by
        have hnoted : s₂.table = s.table := s₁.noteRun_table e.message
        rw [s₂.finish_table, hnoted]
        exact h
      split
      · next heq =>
          rw [heq] at hended
          exact hended
      · next heq =>
          rw [heq] at hended
          exact hended
  · split
    · rw [(Session.announce_keeps s₁).table]
      exact h
    · next text _ =>
        have hrun := hrun text
        split
        · next s₂ e heq =>
            rw [heq] at hrun
            exact hrun
        · next s₂ heq =>
            rw [heq] at hrun
            rw [Session.finish_table]
            exact hrun

/-- A table that programs can leave is accounted for. -/
theorem Reachable.exists_accounts {t : Table} (h : t.Reachable) :
    ∃ past, Session.Accounts past t := by
  induction h with
  | empty => exact ⟨[], Session.accounts_empty⟩
  | run h text isCancelled ih =>
      apply Session.exists_accounts_runLines
      rw [(Session.announce_keeps _).table]
      exact ih

/-- **What programs leave can be listed without loss.** -/
theorem Reachable.isPlain {t : Table} (h : t.Reachable) : t.IsPlain := by
  obtain ⟨past, haccounts⟩ := h.exists_accounts
  intro s hs
  obtain ⟨b, r, hname, hb, hr⟩ := (haccounts.name s hs).1
  refine ⟨?_, haccounts.finite s hs⟩
  rw [hname]
  exact List.forall_mem_cons.2 ⟨by simp [Bytes.isWord, hb], hr⟩

/-- **The dump of a run loses nothing.**  Tables that programs can leave have the same dump just if
they have the same integers and the same doubles: the same names in the same order, and for each of
them the same value, with its sign even if it is zero. -/
theorem Reachable.dump_loses_nothing {t u : Table} (ht : t.Reachable) (hu : u.Reachable) :
    t.dump = u.dump ↔
      (t.byKind .int).map (fun s => (s.name, s.value)) =
        (u.byKind .int).map (fun s => (s.name, s.value)) ∧
      (t.byKind .double).map (fun s => (s.name, s.value)) =
        (u.byKind .double).map (fun s => (s.name, s.value)) := by
  rw [ht.isPlain.dump_eq_iff hu.isPlain]
  constructor
  · intro h
    exact ⟨h .int, h .double⟩
  · rintro ⟨hints, hdoubles⟩ k
    cases k with
    | int => exact hints
    | double => exact hdoubles

/-- The two zeros are listed differently. -/
theorem Reachable.dump_ne_of_zeros :
    let s := Session.start ⟨false, .text, false, [], false⟩ [] none (.empty [])
    (s.run (utf8 "double x = 0.0;") false).1.table.dump ≠
      (s.run (utf8 "double x = -0.0;") false).1.table.dump := by
  intro s heq
  have hempty : s.table.Reachable := .empty
  obtain ⟨-, hdoubles⟩ := (dump_loses_nothing (.run hempty (utf8 "double x = 0.0;") false)
    (.run hempty (utf8 "double x = -0.0;") false)).1 heq
  revert hdoubles
  decide +kernel

end Table

end LineCalc
