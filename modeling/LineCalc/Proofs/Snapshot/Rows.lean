import LineCalc.Snapshot.Rows
import Mathlib.Data.List.Basic
import Mathlib.Data.List.Pairwise
/-!
# The rows of a table

Parting the variables by kind and merging them again by their places gives them back in order, so
the rows of a snapshot are those of its table.

* `Snapshot.merge_filter` : parting a sorted list and merging the parts gives it back;
* `Snapshot.entries_ofTable` : the entries of a snapshot are its variables with their places;
* `Row.ofTable` : the rows of a table, one for each variable;
* `Row.append` : the rows of a snapshot are added all or not at all;
* `Row.append_eq_error_iff` : they are refused just if one of them clashes.
-/
namespace LineCalc

/-! ## Entries in order -/

namespace Snapshot

/-- A list that is parted by a test and merged again, by a comparison that holds from left to right
and not from right to left, is the list. -/
theorem merge_filter {α : Type} (p : α → Bool) (le : α → α → Bool) (l : List α)
    (h : l.Pairwise fun a b => le a b = true ∧ le b a = false) :
    (l.filter p).merge (l.filter (!p ·)) le = l := by
  induction l with
  | nil => rw [List.filter_nil, List.filter_nil, List.nil_merge]
  | cons x xs ih =>
      obtain ⟨hx, hxs⟩ := List.pairwise_cons.1 h
      have ih := ih hxs
      cases hp : p x with
      | true =>
          rw [List.filter_cons_of_pos hp, List.filter_cons_of_neg (by simp [hp])]
          cases hright : xs.filter (!p ·) with
          | nil =>
              rw [hright, List.merge_right] at ih
              rw [List.merge_right, ih]
          | cons y ys =>
              have hy : y ∈ xs.filter (!p ·) := by
                rw [hright]
                exact List.mem_cons_self
              rw [List.cons_merge_cons_pos le _ _ (hx y (List.mem_filter.1 hy).1).1, ← hright, ih]
      | false =>
          rw [List.filter_cons_of_neg (by simp [hp]), List.filter_cons_of_pos (by simp [hp])]
          cases hleft : xs.filter p with
          | nil =>
              rw [hleft, List.nil_merge] at ih
              rw [List.nil_merge, ih]
          | cons y ys =>
              have hy : y ∈ xs.filter p := by
                rw [hleft]
                exact List.mem_cons_self
              have hback := (hx y (List.mem_filter.1 hy).1).2
              rw [List.cons_merge_cons_neg le _ _ (by simp [hback]), ← hleft, ih]

/-- The places of variables go up. -/
theorem number_pairwise (ss : List Symbol) : (number ss).Pairwise fun a b => a.seq < b.seq := by
  have hseq : (number ss).map Entry.seq = List.range' 1 ss.length := by
    rw [number, List.map_map]
    exact List.zipIdx_map_snd 1 ss
  have hpairwise : (List.range' 1 ss.length).Pairwise (· < ·) := List.pairwise_lt_range' 1
  rw [← hseq, List.pairwise_map] at hpairwise
  exact hpairwise

/-- **The entries of a snapshot** are the variables of its table in order. -/
theorem entries_ofTable (run source : Bytes) (t : Table) :
    (ofTable run source t).entries = number t.symbols := by
  have hkind : ∀ e : Entry, (e.value.kind == .double) = !(e.value.kind == .int) := by
    intro e
    cases e.value with
    | int i => rfl
    | double d => rfl
  have hsorted : (number t.symbols).Pairwise fun a b =>
      decide (a.seq < b.seq) = true ∧ decide (b.seq < a.seq) = false := by
    refine (number_pairwise t.symbols).imp ?_
    intro a b h
    exact ⟨decide_eq_true h, decide_eq_false (Nat.not_lt_of_gt h)⟩
  simp only [entries, ofTable, hkind]
  exact merge_filter _ _ _ hsorted

end Snapshot

/-! ## The rows of a run -/

namespace Row

/-- The row holds the variable of a run at the given place: its name and its kind, and its value as
that of its kind, where zero has no sign and what is no number is left out. -/
structure Records (run : Bytes) (seq : Nat) (y : Symbol) (r : Row) : Prop where
  run : r.run = run
  seq : r.seq = seq
  name : r.name = y.name
  kind : r.kind = y.value.kind
  int : ∀ i, y.value = .int i → r.int = some i ∧ r.double = none
  double : ∀ d, y.value = .double d → r.int = none ∧
    (d ≠ .nan → r.double = some d ∨ d = Double.zero.neg ∧ r.double = some .zero)

/-- The rows of a table: one for each variable, with its place from one on. -/
def ofTable (run : Bytes) (t : Table) : List Row :=
  (t.symbols.zipIdx 1).map fun (y, i) => ofEntry run ⟨i, y.name, y.value⟩

/-- The rows of a snapshot are those of its table. -/
theorem rows_ofTable (run source : Bytes) (t : Table) :
    (Snapshot.ofTable run source t).rows = ofTable run t := by
  rw [Snapshot.rows, Snapshot.entries_ofTable, Snapshot.number, List.map_map]
  rfl

/-- A database keeps all doubles but two. -/
theorem stored_eq_some {d : Double} (hnan : d ≠ .nan) (hzero : d ≠ Double.zero.neg) :
    stored d = some d := by
  unfold stored
  split
  · exact absurd rfl hnan
  · exact if_neg hzero

/-- The row of an entry holds its variable. -/
theorem records_ofEntry (run : Bytes) (seq : Nat) (y : Symbol) :
    Records run seq y (ofEntry run ⟨seq, y.name, y.value⟩) := by
  obtain ⟨name, value, line⟩ := y
  cases value with
  | int i =>
      refine ⟨rfl, rfl, rfl, rfl, ?_, ?_⟩
      · rintro _ ⟨⟩
        exact ⟨rfl, rfl⟩
      · rintro _ ⟨⟩
  | double d =>
      refine ⟨rfl, rfl, rfl, rfl, ?_, ?_⟩
      · rintro _ ⟨⟩
      · rintro _ ⟨⟩
        refine ⟨rfl, ?_⟩
        intro hd
        show stored d = some d ∨ d = Double.zero.neg ∧ stored d = some .zero
        by_cases hzero : d = Double.zero.neg
        · subst hzero
          exact .inr ⟨rfl, rfl⟩
        · exact .inl (stored_eq_some hd hzero)

/-- A table has one row for each variable, in their order. -/
theorem ofTable_spec (run : Bytes) (t : Table) :
    (ofTable run t).length = t.size ∧ ∀ i y, t.symbols[i]? = some y →
      ∃ r, (ofTable run t)[i]? = some r ∧ Records run (i + 1) y r := by
  refine ⟨by simp [ofTable, Table.size], ?_⟩
  intro i y hy
  refine ⟨ofEntry run ⟨1 + i, y.name, y.value⟩, ?_, ?_⟩
  · rw [ofTable, List.getElem?_map, List.getElem?_zipIdx, hy]
    rfl
  · rw [Nat.add_comm i 1]
    exact records_ofEntry run (1 + i) y

/-- Every row of a table has its run, and the table has variables. -/
theorem run_of_mem_ofTable {run : Bytes} {t : Table} {r : Row} (h : r ∈ ofTable run t) :
    r.run = run ∧ t.size ≠ 0 := by
  have hlength := List.length_pos_of_mem h
  rw [(ofTable_spec run t).1] at hlength
  obtain ⟨⟨y, i⟩, -, rfl⟩ := List.mem_map.1 h
  exact ⟨(records_ofEntry run i y).run, Nat.ne_of_gt hlength⟩

/-- A table with variables has a row at the first place. -/
theorem exists_first_of_size (run : Bytes) {t : Table} (h : t.size ≠ 0) :
    ∃ r ∈ ofTable run t, r.run = run ∧ r.seq = 1 := by
  obtain ⟨y, ys, hsymbols⟩ := List.exists_cons_of_length_pos (Nat.pos_of_ne_zero h)
  have hrecords := records_ofEntry run 1 y
  refine ⟨_, ?_, hrecords.run, hrecords.seq⟩
  rw [ofTable, hsymbols, List.zipIdx_cons]
  exact List.mem_cons_self

/-! ## Adding rows -/

/-- The rows with those of a snapshot at their end, or the first of the new rows whose run and
place are taken. -/
def append (rows : List Row) (s : Snapshot) : Except Row (List Row) :=
  match s.rows.find? fun r => rows.any r.clashes with
  | some r => .error r
  | none => .ok (rows ++ s.rows)

variable {rows rows' : List Row} {s : Snapshot}

/-- Rows are refused just if one of them clashes. -/
theorem append_eq_error_iff :
    (∃ r, append rows s = .error r) ↔ ∃ r ∈ s.rows, ∃ r' ∈ rows, r.clashes r' := by
  unfold append
  cases hfind : s.rows.find? fun r => rows.any r.clashes with
  | none =>
      rw [List.find?_eq_none] at hfind
      simpa using hfind
  | some r =>
      have hclash := List.find?_some hfind
      simp only [List.any_eq_true] at hclash
      exact ⟨fun _ => ⟨r, List.mem_of_find?_eq_some hfind, hclash⟩, fun _ => ⟨r, rfl⟩⟩

/-- Rows that are taken come last. -/
theorem append_eq_ok (h : append rows s = .ok rows') : rows' = rows ++ s.rows := by
  unfold append at h
  split at h
  · cases h
  · cases h
    rfl

end Row

end LineCalc
