import LineCalc.Proofs.Snapshot.Rows
import LineCalc.Snapshot.Transaction
import Mathlib.Data.List.Nodup
/-!
# What a transaction leaves

A transaction inserts rows up to the first one whose key is there.  If there is none, all rows are
committed, and otherwise the rollback takes back those that were inserted before it.

* `Transaction.on_inserts` : what is inserted of some rows;
* `Transaction.on_write` : what is left of a transaction, committed or rolled back;
* `Transaction.preserves_write` : no two rows of a database have the same key;
* `Transaction.write_eq_append` : the rows of a snapshot are added all or not at all.
-/
namespace LineCalc

namespace Row

/-- What a row is known by. -/
def key (r : Row) : Bytes × Nat := (r.run, r.seq)

/-- A row clashes with rows that have its key. -/
theorem any_clashes_iff (r : Row) (rows : List Row) :
    rows.any r.clashes = true ↔ r.key ∈ rows.map key := by
  simp only [List.any_eq_true, List.mem_map, clashes, key, Bool.and_eq_true, beq_iff_eq,
    Prod.mk.injEq]
  constructor
  · rintro ⟨x, hx, hrun, hseq⟩
    exact ⟨x, hx, hrun.symm, hseq.symm⟩
  · rintro ⟨x, hx, hrun, hseq⟩
    exact ⟨x, hx, hrun.symm, hseq.symm⟩

/-- The rows of a table have different keys, as they have different places. -/
theorem nodup_keys_ofTable (run : Bytes) (t : Table) : ((ofTable run t).map key).Nodup := by
  have hseq : ((ofTable run t).map key).map Prod.snd = List.range' 1 t.symbols.length := by
    rw [← List.zipIdx_map_snd 1 t.symbols, ofTable, List.map_map, List.map_map]
    apply List.map_congr_left
    rintro ⟨⟨name, value, line⟩, i⟩ -
    cases value with
    | int v => rfl
    | double d => rfl
  have hnodup : (((ofTable run t).map key).map Prod.snd).Nodup := by
    rw [hseq]
    exact List.nodup_range'
  exact hnodup.of_map

end Row

namespace Transaction

/-! ## Statements -/

/-- **What an insert leaves.**  A row whose key is there is not inserted. -/
theorem on_insert (r : Row) (t : Transaction) : (insert r).on t =
    if r.key ∈ t.pending.map Row.key then (.error r, t)
    else (.ok (), { t with pending := t.pending ++ [r] }) := by
  rw [← if_congr (Row.any_clashes_iff r t.pending) rfl rfl, insert, Change.on_bind, Change.on_get]
  dsimp only
  split
  · exact Change.on_throw r t
  · exact Change.on_modify _ t

/-- The rows are inserted up to the first one whose key is there, in the database or in an earlier
one of them. -/
theorem on_inserts (rs : List Row) (t : Transaction) : ∃ taken rest, rs = taken ++ rest ∧
    (∀ r ∈ taken, r.key ∉ t.pending.map Row.key) ∧
    (∀ r ∈ rest.head?, r.key ∈ (t.pending ++ taken).map Row.key) ∧
    (forM rs insert).on t =
      (match rest with
        | [] => .ok ()
        | r :: _ => .error r, { t with pending := t.pending ++ taken }) := by
  induction rs generalizing t with
  | nil => exact ⟨[], [], rfl, by simp, by simp, by simp⟩
  | cons r rs ih =>
      have hinsert := on_insert r t
      rw [List.forM_cons, Change.on_bind]
      by_cases hr : r.key ∈ t.pending.map Row.key
      · rw [hinsert, if_pos hr]
        exact ⟨[], r :: rs, rfl, by simp, by simpa using hr, by simp⟩
      · rw [hinsert, if_neg hr]
        obtain ⟨taken, rest, rfl, htaken, hrest, heq⟩ := ih { t with pending := t.pending ++ [r] }
        rw [List.append_assoc] at hrest heq
        refine ⟨r :: taken, rest, rfl, ?_, hrest, heq⟩
        refine List.forall_mem_cons.2 ⟨hr, fun x hx hkey => htaken x hx ?_⟩
        rw [List.map_append]
        exact List.mem_append_left _ hkey

/-- A rollback takes back what was not committed. -/
theorem on_rollback (t : Transaction) : rollback.on t = (.ok (), start t.committed) := rfl

/-! ## Whole transactions -/

/-- The entries of a snapshot are inserted as its rows. -/
theorem write_eq (s : Snapshot) :
    write s = tryFinally (do forM s.rows insert; commit) rollback := by
  have hloop : (forM s.entries fun e => insert (Row.ofEntry s.run e)) = forM s.rows insert :=
    (List.forM_map ..).symm
  rw [write, hloop]

/-- **What a transaction leaves.**  It commits all rows of the snapshot, or stops at the first one
whose key is there and leaves the rows that were committed before. -/
theorem on_write (s : Snapshot) (t : Transaction) : ∃ taken rest, s.rows = taken ++ rest ∧
    (∀ r ∈ taken, r.key ∉ t.pending.map Row.key) ∧
    (∀ r ∈ rest.head?, r.key ∈ (t.pending ++ taken).map Row.key) ∧
    (write s).on t =
      match rest with
      | [] => (.ok (), start (t.pending ++ s.rows))
      | r :: _ => (.error r, start t.committed) := by
  obtain ⟨taken, rest, hrows, htaken, hrest, hinserts⟩ := on_inserts s.rows t
  refine ⟨taken, rest, hrows, htaken, hrest, ?_⟩
  rw [write_eq, Change.on_finally, on_rollback, Change.on_bind, hinserts]
  cases rest with
  | nil =>
      rw [List.append_nil] at hrows
      rw [hrows]
      rfl
  | cons r rest => rfl

/-- **The rows of a snapshot are added all or not at all.**  As they have different keys, the first
one that is not inserted has the key of a row that was there before. -/
theorem write_eq_append {s : Snapshot} (hs : (s.rows.map Row.key).Nodup) (rows : List Row) :
    (write s).on (start rows) =
      match Row.append rows s with
      | .ok rows' => (.ok (), start rows')
      | .error r => (.error r, start rows) := by
  obtain ⟨taken, rest, hrows, htaken, hrest, heq⟩ := on_write s (start rows)
  have hnone : (taken.find? fun r => rows.any r.clashes) = none := by
    rw [List.find?_eq_none]
    intro r hr hclash
    exact htaken r hr ((Row.any_clashes_iff r rows).1 hclash)
  rw [heq, Row.append, hrows, List.find?_append, hnone, Option.none_or]
  cases rest with
  | nil => rfl
  | cons r rest =>
      have hclash : rows.any r.clashes = true := by
        have hr : r.key ∈ (rows ++ taken).map Row.key := hrest r rfl
        rw [List.map_append, List.mem_append] at hr
        rw [Row.any_clashes_iff]
        refine hr.resolve_right fun hr => ?_
        rw [hrows, List.map_append, List.nodup_append] at hs
        exact hs.2.2 r.key hr r.key List.mem_cons_self rfl
      have hfirst : ((r :: rest).find? fun r => rows.any r.clashes) = some r :=
        List.find?_cons_of_pos hclash
      rw [hfirst]
      rfl

/-! ## Keys -/

/-- No two rows have the same key. -/
structure Keyed (t : Transaction) : Prop where
  committed : (t.committed.map Row.key).Nodup
  pending : (t.pending.map Row.key).Nodup

/-- An insert keeps the keys different. -/
theorem preserves_insert (r : Row) : (insert r).Preserves Keyed := by
  intro t ht
  rw [on_insert]
  split
  · exact ht
  · next hr =>
      refine ⟨ht.committed, ?_⟩
      show ((t.pending ++ [r]).map Row.key).Nodup
      rw [List.map_append, List.nodup_append]
      refine ⟨ht.pending, by simp, ?_⟩
      rintro k hk _ hr' rfl
      rw [List.map_singleton, List.mem_singleton] at hr'
      exact hr (hr' ▸ hk)

/-- So do inserts one after the other. -/
theorem preserves_inserts (rs : List Row) : Change.Preserves Keyed (forM rs insert) := by
  induction rs with
  | nil => exact Change.preserves_pure _
  | cons r rs ih => exact (preserves_insert r).bind fun _ => ih

/-- **No two rows of a database have the same key**, whatever is written to it. -/
theorem preserves_write (s : Snapshot) : (write s).Preserves Keyed := by
  rw [write_eq]
  refine Change.Preserves.finally ((preserves_inserts s.rows).bind fun _ => ?_) ?_
  · exact fun t ht => ⟨ht.pending, ht.pending⟩
  · exact fun t ht => ⟨ht.committed, ht.committed⟩

end Transaction

end LineCalc
