import LineCalc.Table
import Mathlib.Data.List.Basic
import Mathlib.Data.List.Nodup
/-!
# What the table holds

A table is known by what it finds under each name.

* `Table.symbol?_eq_some_iff` : a variable is found under its name;
* `Table.symbol?_set`, `Table.symbol?_push` : the two ways to change it;
* `Table.declare_of_kind`, `Table.update_of_kind` : what is found after a value of the right kind is
  declared or assigned.
-/
namespace LineCalc.Table

/-- A table is the list of its variables. -/
theorem eq_of_symbols_eq {t u : Table} (h : t.symbols = u.symbols) : t = u := by
  cases t
  cases u
  cases h
  rfl

/-- What is found has the name that was looked for. -/
theorem name_of_symbol? {t : Table} {name : Bytes} {y : Symbol} (h : t.symbol? name = some y) :
    y.name = name := by
  have := List.find?_some h
  simpa using this

/-- A variable is found under its name, and under no other. -/
theorem symbol?_eq_some_iff {t : Table} {name : Bytes} {y : Symbol} :
    t.symbol? name = some y ↔ y ∈ t.symbols ∧ y.name = name := by
  constructor
  · intro h
    exact ⟨List.mem_of_find?_eq_some h, name_of_symbol? h⟩
  · rintro ⟨hy, rfl⟩
    obtain ⟨z, hz⟩ : ∃ z, t.symbol? y.name = some z := by
      rw [← Option.isSome_iff_exists, symbol?, List.find?_isSome]
      exact ⟨y, hy, beq_self_eq_true _⟩
    rw [hz, List.inj_on_of_nodup_map t.nodup (List.mem_of_find?_eq_some hz) hy (name_of_symbol? hz)]

/-- A name is found nowhere just if no variable has it. -/
theorem symbol?_eq_none_iff {t : Table} {name : Bytes} :
    t.symbol? name = none ↔ name ∉ t.symbols.map Symbol.name := by
  simp [symbol?]

/-- Setting a value changes what is found under its name only. -/
theorem symbol?_set (t : Table) (name : Bytes) (v : Value) (n : Bytes) :
    (t.set name v).symbol? n =
      if n = name then (t.symbol? name).map fun y => { y with value := v } else t.symbol? n := by
  have hfind : (t.set name v).symbol? n = (t.symbol? n).map (Symbol.assign name v) := by
    have hname : (fun y : Symbol => y.name == n) ∘ Symbol.assign name v = (·.name == n) := by
      funext y
      rw [Function.comp_apply, Symbol.name_assign]
    rw [symbol?, set, List.find?_map, hname]
    rfl
  rw [hfind]
  split
  · next h =>
      subst h
      cases hn : t.symbol? n with
      | none => rfl
      | some y =>
          have hy := name_of_symbol? hn
          simp [Symbol.assign, hy]
  · next h =>
      cases hn : t.symbol? n with
      | none => rfl
      | some y =>
          have hy : y.name ≠ name := by rw [name_of_symbol? hn]; exact h
          simp [Symbol.assign, hy]

/-- A new variable is found under its name, and all others as before. -/
theorem symbol?_push (t : Table) (y : Symbol) (h : t.symbol? y.name = none) (n : Bytes) :
    (t.push y h).symbol? n = if n = y.name then some y else t.symbol? n := by
  have hfind : (t.push y h).symbol? n = (t.symbol? n).or (if y.name = n then some y else none) := by
    simp [symbol?, push, List.find?_append, List.find?_singleton]
  rw [hfind]
  by_cases hn : n = y.name
  · subst hn
    simp [h]
  · simp [hn, Ne.symm hn]

/-- A value of the kind that a name has, or under a new name, can be declared.  A name that is
there keeps its line. -/
theorem declare_of_kind {t : Table} {name : Bytes} {v : Value} (line : Int)
    (h : ∀ y, t.symbol? name = some y → y.value.kind = v.kind) :
    ∃ t', t.declare name v line = .ok t' ∧ ∀ n, t'.symbol? n =
      if n = name then some ⟨name, v, ((t.symbol? name).map Symbol.line).getD line⟩
      else t.symbol? n := by
  unfold declare
  split
  · next y hy =>
      rw [if_pos (h y hy)]
      refine ⟨t.set name v, rfl, ?_⟩
      intro n
      have hname := name_of_symbol? hy
      rw [symbol?_set, hy, Option.map_some, Option.map_some, Option.getD_some, ← hname]
  · next hnone =>
      refine ⟨_, rfl, ?_⟩
      intro n
      rw [symbol?_push, hnone]
      rfl

/-- A variable can be given a value of its kind. -/
theorem update_of_kind {t : Table} {name : Bytes} {v : Value} {y : Symbol}
    (hy : t.symbol? name = some y) (h : y.value.kind = v.kind) :
    ∃ t', t.update name v = .ok t' ∧ ∀ n, t'.symbol? n =
      if n = name then some { y with value := v } else t.symbol? n := by
  refine ⟨t.set name v, ?_, ?_⟩
  · unfold update
    rw [hy]
    exact if_pos h
  · intro n
    rw [symbol?_set, hy, Option.map_some]

end LineCalc.Table
