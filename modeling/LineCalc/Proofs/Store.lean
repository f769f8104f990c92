import LineCalc.Proofs.Table
import LineCalc.Store
/-!
# The store and its table

The map of a store and the order of its names make up a table.  A change of the store does to it
what the same change does to the table, and a change that the table refuses leaves the store as it
was.

* `Store.InStep.symbol?_table`, `Store.InStep.size_table` : the map and the order show the table;
* `Store.InStep.table_assign`, `Store.InStep.table_add` : the writes, as changes of the table;
* `Store.exists_table_ofTable` : every table is shown so by some store;
* `Store.Mirrors` : the store is left as the table is;
* `Store.mirrors_declare`, `Store.mirrors_update` : so it is by both changes.
-/
namespace LineCalc.Store

variable {σ : Store}

/-! ## The table of a store -/

namespace InStep

/-- The map has what the table finds. -/
theorem symbol?_table (h : σ.InStep) (n : Bytes) : h.table.symbol? n = σ.cell? n := by
  cases hn : σ.cell? n with
  | none =>
      rw [Table.symbol?_eq_none_iff, show h.table.symbols.map Symbol.name = σ.order from h.names,
        h.listed, hn]
      simp
  | some s =>
      rw [Table.symbol?_eq_some_iff]
      refine ⟨List.mem_filterMap.2 ⟨n, ?_, hn⟩, h.named n s hn⟩
      rw [h.listed, hn]
      rfl

/-- So it has the values. -/
theorem find?_table (h : σ.InStep) : h.table.find? = σ.find? := by
  funext n
  rw [Table.find?, h.symbol?_table n]
  rfl

/-- The order counts the variables. -/
theorem size_table (h : σ.InStep) : h.table.size = σ.size := by
  rw [size, ← h.names, List.length_map]
  rfl

/-- A value is written in the place of another. -/
theorem table_assign (h : σ.InStep) {name : Bytes} {s : Symbol} (hs : σ.cell? name = some s)
    (v : Value) : (h.assign hs v).table = h.table.set name v := by
  apply Table.eq_of_symbols_eq
  show σ.order.filterMap _ = (σ.order.filterMap σ.cell?).map (Table.Symbol.assign name v)
  rw [List.map_filterMap]
  congr 1
  funext n
  rw [cell?_put]
  split
  · next hn =>
      rw [hn, hs, Option.map_some, Table.Symbol.assign, if_pos (h.named name s hs)]
  · next hn =>
      cases hy : σ.cell? n with
      | none => rfl
      | some y =>
          have hname : y.name ≠ name := by
            rw [h.named n y hy]
            exact hn
          rw [Option.map_some, Table.Symbol.assign, if_neg hname]

/-- A new variable comes last. -/
theorem table_add (h : σ.InStep) {name : Bytes} (hnone : σ.cell? name = none) (v : Value)
    (line : Int) : (h.add hnone v line).table =
      h.table.push ⟨name, v, line⟩ ((h.symbol?_table name).trans hnone) := by
  apply Table.eq_of_symbols_eq
  show (σ.order ++ [name]).filterMap _ = σ.order.filterMap σ.cell? ++ [⟨name, v, line⟩]
  rw [List.filterMap_append]
  congr 1
  · apply List.filterMap_congr
    intro n hn
    have hne : n ≠ name := by
      rintro rfl
      rw [h.listed, hnone] at hn
      cases hn
    rw [cell?_enlist, cell?_put, if_neg hne]
  · have hlast : ((σ.put name ⟨name, v, line⟩).enlist name).cell? name = some ⟨name, v, line⟩ := by
      rw [cell?_enlist, cell?_put, if_pos rfl]
    rw [List.filterMap_cons_some hlast, List.filterMap_nil]

end InStep

/-- A table, as a map and an order. -/
def ofTable (t : Table) : Store := ⟨t.symbols.map fun y => (y.name, y), t.symbols.map Symbol.name⟩

/-- The map has what the table finds. -/
theorem cell?_ofTable (t : Table) (n : Bytes) : (ofTable t).cell? n = t.symbol? n := by
  show (t.symbols.map fun y => (y.name, y)).lookup n = t.symbols.find? (·.name == n)
  induction t.symbols with
  | nil => rfl
  | cons y ys ih =>
      rw [List.map_cons, List.lookup_cons, List.find?_cons, ih, BEq.comm]

/-- **Every table is shown by a store in step.** -/
theorem exists_table_ofTable (t : Table) : ∃ h : (ofTable t).InStep, h.table = t := by
  have hstep : (ofTable t).InStep := by
    refine ⟨t.nodup, ?_, ?_⟩
    · intro n y hy
      rw [cell?_ofTable] at hy
      exact Table.name_of_symbol? hy
    · intro n
      rw [cell?_ofTable, Option.isSome_iff_ne_none, Ne, Table.symbol?_eq_none_iff, not_not]
      rfl
  refine ⟨hstep, Table.eq_of_symbols_eq ?_⟩
  show (t.symbols.map Symbol.name).filterMap (ofTable t).cell? = t.symbols
  have hcells : ∀ y ∈ t.symbols, ((ofTable t).cell? ∘ Symbol.name) y = some y := by
    intro y hy
    rw [Function.comp_apply, cell?_ofTable, Table.symbol?_eq_some_iff]
    exact ⟨hy, rfl⟩
  rw [List.filterMap_map, List.filterMap_congr hcells, List.filterMap_some]

/-! ## Changes of both -/

/-- What becomes of a store and of a table by the same change: both refuse it, and the store is as
it was, or both take it, and the store is in step, with that table. -/
inductive Mirrors {ε α : Type} (σ : Store) : Except ε (Table × α) → Except ε α × Store → Prop
  | error (e : ε) : Mirrors σ (.error e) (.error e, σ)
  | ok {σ' : Store} (h : σ'.InStep) (a : α) : Mirrors σ (.ok (h.table, a)) (.ok a, σ')

/-- What the table refuses leaves the store as it was. -/
theorem Mirrors.of_error {ε α : Type} {e : ε} {p : Except ε α × Store}
    (h : Mirrors σ (.error e) p) : p = (.error e, σ) := by
  cases h with
  | error => rfl

/-- What the table takes leaves a store with the table that it leaves. -/
theorem Mirrors.of_ok {ε α : Type} {t : Table} {a : α} {p : Except ε α × Store}
    (h : Mirrors σ (.ok (t, a)) p) : ∃ h : p.2.InStep, h.table = t ∧ p.1 = .ok a := by
  cases h with
  | ok h => exact ⟨h, rfl, rfl⟩

/-- A declaration does the same to both. -/
theorem mirrors_declare (h : σ.InStep) (name : Bytes) (v : Value) (line : Int) :
    Mirrors σ ((h.table.declare name v line).map (·, ())) ((declare name v line).on σ) := by
  have hsymbol := h.symbol?_table name
  rw [on_declare]
  unfold Table.declare
  cases hs : σ.cell? name with
  | none =>
      split
      · next s hfound =>
          rw [hsymbol, hs] at hfound
          cases hfound
      · exact h.table_add hs v line ▸ .ok (h.add hs v line) ()
  | some s =>
      split
      · next s' hfound =>
          obtain rfl : s = s' := Option.some.inj (hs.symm.trans (hsymbol.symm.trans hfound))
          dsimp only
          split
          · exact h.table_assign hs v ▸ .ok (h.assign hs v) ()
          · exact .error _
      · next hnone =>
          rw [hsymbol, hs] at hnone
          cases hnone

/-- So does a new value. -/
theorem mirrors_update (h : σ.InStep) (name : Bytes) (v : Value) :
    Mirrors σ ((h.table.update name v).map (·, ())) ((update name v).on σ) := by
  rw [on_update, Table.update, h.symbol?_table name]
  cases hs : σ.cell? name with
  | none => exact .error _
  | some s =>
      dsimp only
      split
      · exact h.table_assign hs v ▸ .ok (h.assign hs v) ()
      · exact .error _

end LineCalc.Store
