import LineCalc.Proofs.Snapshot.Transaction
import LineCalc.Proofs.Workspace
/-!
# Exports to one database

A database that takes one snapshot after the other holds whole runs only: the rows of the snapshots
that it took, one run behind the other.

* `Workspace.Holds` : the database holds the rows of the exports that were taken;
* `Workspace.Ready.store` : an export adds all its rows or none;
* `Workspace.ready_exportAll` : so do any exports, one after the other;
* `Workspace.exports_append_whole_runs` : the rows after any exports, and when one is refused.
-/
namespace LineCalc.Workspace

/-- What is exported: the variables of a run, and where its program came from. -/
structure Export where
  run : Bytes
  source : Bytes
  table : Table

namespace Export

/-- The snapshot that is exported. -/
def snapshot (c : Export) : Snapshot := .ofTable c.run c.source c.table

/-- The rows of an export: one for each variable of its table. -/
def rows (c : Export) : List Row := Row.ofTable c.run c.table

/-- The export has rows, and so has an earlier one of the same run. -/
def Repeats (c : Export) (done : List Export) : Prop :=
  c.table.size ≠ 0 ∧ ∃ d ∈ done, d.run = c.run ∧ d.table.size ≠ 0

/-- **Rows are refused just if their run has rows already.**  Whatever the sizes of the two tables,
their first rows clash. -/
theorem repeats_iff (c : Export) (done : List Export) :
    (∃ r, Row.append (done.flatMap rows) c.snapshot = .error r) ↔ c.Repeats done := by
  rw [Row.append_eq_error_iff, snapshot, Row.rows_ofTable]
  constructor
  · rintro ⟨r, hr, r', hr', hclash⟩
    obtain ⟨d, hd, hr'⟩ := List.mem_flatMap.1 hr'
    obtain ⟨hrun, hsize⟩ := Row.run_of_mem_ofTable hr
    obtain ⟨hrun', hsize'⟩ := Row.run_of_mem_ofTable hr'
    simp only [Row.clashes, Bool.and_eq_true, beq_iff_eq] at hclash
    exact ⟨hsize, d, hd, by rw [← hrun', ← hclash.1, hrun], hsize'⟩
  · rintro ⟨hsize, d, hd, hrun, hsize'⟩
    obtain ⟨r, hr, hrrun, hrseq⟩ := Row.exists_first_of_size c.run hsize
    obtain ⟨r', hr', hrrun', hrseq'⟩ := Row.exists_first_of_size d.run hsize'
    refine ⟨r, hr, r', List.mem_flatMap.2 ⟨d, hd, hr'⟩, ?_⟩
    simp [Row.clashes, hrrun, hrseq, hrrun', hrseq', hrun]

end Export

/-- The database of the given name takes an export, and the export joins those that were taken; one
that is refused leaves these as they are. -/
def record (name : Bytes) (s : Workspace × List Export) (c : Export) : Workspace × List Export :=
  match s.1.store name c.snapshot false with
  | (w, none) => (w, s.2 ++ [c])
  | (w, some _) => (w, s.2)

/-- The workspace after a row of exports to one database, and those of them that it took. -/
def exportAll (w : Workspace) (name : Bytes) (exports : List Export) : Workspace × List Export :=
  exports.foldl (record name) (w, [])

/-- The path of the file that a database of the given name is kept in. -/
def databaseFile (name : Bytes) : Bytes := Path.clean (databasePath name)

/-! ## One export -/

/-- The database holds the rows of the exports that were taken, one run behind the other. -/
def Holds (name : Bytes) (parts : List Bytes) (s : Workspace × List Export) : Prop :=
  s.1.locate (databaseFile name) = .file parts (.database (s.2.flatMap Export.rows))

/-- The database holds what was taken, or nothing was taken and its name is free. -/
def Ready (name : Bytes) (parts : List Bytes) (s : Workspace × List Export) : Prop :=
  Holds name parts s ∨ s.1.locate (databaseFile name) = .vacant parts ∧ s.2 = []

variable {name : Bytes} {parts : List Bytes} {w : Workspace} {done : List Export}

/-- The rows of a database that holds them can be looked at. -/
theorem Holds.rows? {s : Workspace × List Export} (h : Holds name parts s) :
    s.1.rows? (databaseFile name) = some (s.2.flatMap Export.rows) := by
  rw [Workspace.rows?, h]

/-- What was taken is what an export is added to. -/
theorem Ready.rowsAt (h : Ready name parts (w, done)) :
    rowsAt (w.locate (databaseFile name)) = .ok (parts, done.flatMap Export.rows) := by
  rcases h with h | ⟨h, hdone⟩
  · rw [h]
    rfl
  · obtain rfl : done = [] := hdone
    rw [show w.locate (databaseFile name) = .vacant parts from h]
    rfl

/-- A database holds what is put into it. -/
theorem Ready.putRows (h : Ready name parts (w, done)) (done' : List Export) :
    Holds name parts (w.putRows parts (done'.flatMap Export.rows), done') := by
  refine locate_putRows ?_
  rcases h with h | ⟨h, -⟩
  · exact .inr ⟨_, h⟩
  · exact .inl h

/-- **One export is added as a whole or not at all.**  It is refused just if its run has rows
already, and then the database holds what it held. -/
theorem Ready.store (hkept : isPassing (databasePath name) = false)
    (h : Ready name parts (w, done)) (c : Export) :
    (¬ c.Repeats done ∧ (w.store name c.snapshot false).2 = none ∧
      Holds name parts ((w.store name c.snapshot false).1, done ++ [c])) ∨
    (c.Repeats done ∧ (w.store name c.snapshot false).2 ≠ none ∧
      Holds name parts ((w.store name c.snapshot false).1, done)) := by
  have hrows := h.rowsAt
  rw [databaseFile] at hrows
  rw [← c.repeats_iff done]
  have hkeys : (c.snapshot.rows.map Row.key).Nodup := by
    rw [Export.snapshot, Row.rows_ofTable]
    exact Row.nodup_keys_ofTable c.run c.table
  cases happend : Row.append (done.flatMap Export.rows) c.snapshot with
  | ok rows' =>
      left
      have hwrite : (Transaction.write c.snapshot).on (.start (done.flatMap Export.rows)) =
          (.ok (), .start rows') := by
        rw [Transaction.write_eq_append hkeys, happend]
      have hstore : w.store name c.snapshot false = (w.putRows parts rows', none) := by
        simp [Workspace.store, hkept, hrows, hwrite]
        rfl
      have hrows' : rows' = (done ++ [c]).flatMap Export.rows := by
        rw [Row.append_eq_ok happend, Export.snapshot, Row.rows_ofTable]
        simp [Export.rows]
      rw [hstore, hrows']
      exact ⟨by simp, rfl, h.putRows (done ++ [c])⟩
  | error r =>
      right
      have hwrite : (Transaction.write c.snapshot).on (.start (done.flatMap Export.rows)) =
          (.error r, .start (done.flatMap Export.rows)) := by
        rw [Transaction.write_eq_append hkeys, happend]
      have hstore : w.store name c.snapshot false =
          (w.putRows parts (done.flatMap Export.rows), some (.taken r.name)) := by
        simp [Workspace.store, hkept, hrows, hwrite]
        rfl
      rw [hstore]
      exact ⟨⟨r, rfl⟩, by simp, h.putRows done⟩

/-! ## Any exports -/

/-- The database holds what was taken after one more export. -/
theorem Ready.record (hkept : isPassing (databasePath name) = false)
    {s : Workspace × List Export} (h : Ready name parts s) (c : Export) :
    Holds name parts (record name s c) := by
  unfold Workspace.record
  rcases Ready.store hkept h c with ⟨-, hnone, hholds⟩ | ⟨-, hsome, hholds⟩
  · split
    · next w' hstore =>
        rw [hstore] at hholds
        exact hholds
    · next w' e hstore =>
        rw [hstore] at hnone
        cases hnone
  · split
    · next w' hstore =>
        rw [hstore] at hsome
        exact absurd rfl hsome
    · next w' e hstore =>
        rw [hstore] at hholds
        exact hholds

/-- Any exports leave the database ready. -/
theorem ready_exportAll (hkept : isPassing (databasePath name) = false)
    (hnew : w.locate (databaseFile name) = .vacant parts) (exports : List Export) :
    Ready name parts (w.exportAll name exports) := by
  have hfold : ∀ (exports : List Export) (s : Workspace × List Export), Ready name parts s →
      Ready name parts (exports.foldl (Workspace.record name) s) := by
    intro exports
    induction exports with
    | nil => exact fun s h => h
    | cons c exports ih => exact fun s h => ih _ (.inl (h.record hkept c))
  exact hfold exports (w, []) (.inr ⟨hnew, rfl⟩)

/-- One export more is recorded behind the others. -/
theorem exportAll_concat (w : Workspace) (name : Bytes) (exports : List Export) (c : Export) :
    w.exportAll name (exports ++ [c]) = record name (w.exportAll name exports) c := by
  rw [exportAll, List.foldl_concat, ← exportAll]

/-- **Exports append whole runs or nothing.**  Let a database be kept in a file, and let the name of
the file be free.  After any exports to it, one after the other:

* it has the rows of those that it took, one run behind the other;
* an export has one row for each variable of its table, in order, with places from one on;
* the next export is refused just if its table has variables and an export of the same run was taken
  that had some;
* an export that is refused leaves the rows as they were. -/
theorem exports_append_whole_runs (w : Workspace) (name : Bytes) (parts : List Bytes)
    (hkept : isPassing (databasePath name) = false)
    (hnew : w.locate (databaseFile name) = .vacant parts) (exports : List Export) (next : Export) :
    let after := w.exportAll name exports
    let last := after.1.store name next.snapshot false
    (exports ≠ [] →
      after.1.rows? (databaseFile name) = some (after.2.flatMap Export.rows)) ∧
    (∀ c : Export, c.rows.length = c.table.size ∧
      ∀ i y, c.table.symbols[i]? = some y →
        ∃ r : Row, c.rows[i]? = some r ∧ r.Records c.run (i + 1) y) ∧
    (last.2 ≠ none ↔
      next.table.size ≠ 0 ∧ ∃ c ∈ after.2, c.run = next.run ∧ c.table.size ≠ 0) ∧
    (last.2 ≠ none → last.1.rows? (databaseFile name) = after.1.rows? (databaseFile name)) ∧
    w.exportAll name (exports ++ [next]) =
      (last.1, if last.2 = none then after.2 ++ [next] else after.2) := by
  intro after last
  have hready : Ready name parts (after.1, after.2) := ready_exportAll hkept hnew exports
  have hholds : exports ≠ [] → Holds name parts after := by
    intro hne
    obtain ⟨earlier, c, rfl⟩ := (List.eq_nil_or_concat exports).resolve_left hne
    simp only [after, List.concat_eq_append, exportAll_concat]
    exact (ready_exportAll hkept hnew earlier).record hkept c
  refine ⟨fun hne => (hholds hne).rows?, fun c => Row.ofTable_spec c.run c.table, ?_, ?_, ?_⟩
  · rcases hready.store hkept next with ⟨hfresh, hnone, -⟩ | ⟨hrepeats, hsome, -⟩
    · exact ⟨fun h => absurd hnone h, fun h => absurd h hfresh⟩
    · exact ⟨fun _ => hrepeats, fun _ => hsome⟩
  · intro hrefused
    rcases hready.store hkept next with ⟨-, hnone, -⟩ | ⟨hrepeats, -, hlast⟩
    · exact absurd hnone hrefused
    · -- something was taken before, or nothing could clash
      have hne : exports ≠ [] := by
        rintro rfl
        obtain ⟨-, d, hd, -⟩ := hrepeats
        cases hd
      rw [hlast.rows?, (hholds hne).rows?]
  · rw [exportAll_concat, record]
    show (match last with | (w, none) => (w, after.2 ++ [next]) | (w, some _) => (w, after.2)) = _
    cases hlast : last with
    | mk w' e =>
        cases e with
        | none => rfl
        | some e => simp

/-- A run with `x` and `y` is exported, and then the same run with `x` alone: the second export is
refused, and the rows are those of the first. -/
theorem exports_append_whole_runs_again :
    let name := utf8 "runs.db"
    let x : Symbol := ⟨utf8 "x", .int 1, 1⟩
    let y : Symbol := ⟨utf8 "y", .double .zero, 2⟩
    let first : Export := ⟨utf8 "a", utf8 "p", ⟨[x, y], by decide⟩⟩
    let again : Export := ⟨utf8 "a", utf8 "q", ⟨[x], by decide⟩⟩
    let after := (Workspace.empty []).exportAll name [first]
    let last := after.1.store name again.snapshot false
    isPassing (databasePath name) = false ∧
    (Workspace.empty []).locate (databaseFile name) = .vacant [name] ∧
    after.1.rows? (databaseFile name) = some
      [⟨utf8 "a", 1, utf8 "x", .int, some 1, none⟩,
        ⟨utf8 "a", 2, utf8 "y", .double, none, some .zero⟩] ∧
    last.2 ≠ none ∧ last.1.rows? (databaseFile name) = after.1.rows? (databaseFile name) := by
  intro name x y first again after last
  have hkept : isPassing (databasePath name) = false := by decide
  have hnew : (Workspace.empty []).locate (databaseFile name) = .vacant [name] := rfl
  have htaken : after.2 = [first] := by
    -- nothing was taken before, so nothing can clash
    obtain ⟨-, -, hrefused, -, hafter⟩ :=
      exports_append_whole_runs (.empty []) name [name] hkept hnew [] first
    have hnone : (((Workspace.empty []).exportAll name []).1.store name first.snapshot false).2 =
        none := by
      by_contra hsome
      obtain ⟨-, c, hc, -⟩ := hrefused.1 hsome
      cases hc
    rw [if_pos hnone] at hafter
    exact congrArg Prod.snd hafter
  obtain ⟨hrows, -, hrefused, hkeeps, -⟩ :=
    exports_append_whole_runs (.empty []) name [name] hkept hnew [first] again
  have hlast : last.2 ≠ none := by
    refine hrefused.2 ⟨by decide, first, ?_, rfl, by decide⟩
    rw [htaken]
    exact List.mem_cons_self
  refine ⟨hkept, hnew, ?_, hlast, hkeeps hlast⟩
  rw [hrows (by simp), htaken]
  rfl

end LineCalc.Workspace
