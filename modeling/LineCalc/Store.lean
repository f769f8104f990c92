import LineCalc.Change
import LineCalc.Table
/-!
# The store of variables

A run keeps its variables in a map from names to variables and, beside it, the names in the order
in which they were declared.  A change is made write by write, and what is written before an error
stays written.

* `Store` : the map with the order of its names;
* `Store.declare`, `Store.update` : the two changes, as they are carried out;
* `Store.on_declare`, `Store.on_update` : what each of them leaves, on every path;
* `Store.InStep` : the map and the order have the same names;
* `Store.preserves_declare`, `Store.preserves_update` : they still do after both changes.
-/
namespace LineCalc

/-- The variables by their names, and the names in the order of their declarations. -/
structure Store where
  cells : List (Bytes × Symbol)
  order : List Bytes
  deriving DecidableEq

namespace Store

/-- The store without variables. -/
def empty : Store := ⟨[], []⟩

/-- The variable that the map has under a name. -/
def cell? (σ : Store) (name : Bytes) : Option Symbol := σ.cells.lookup name

/-- The value of the variable of the given name. -/
def find? (σ : Store) (name : Bytes) : Option Value := (σ.cell? name).map (·.value)

/-- The number of variables. -/
def size (σ : Store) : Nat := σ.order.length

/-- The variables in the order of their names. -/
def symbols (σ : Store) : List Symbol := σ.order.filterMap σ.cell?

/-! ## Writes -/

/-- The store in which the map has a variable under a name, in the place of another if there was
one. -/
def put (σ : Store) (name : Bytes) (s : Symbol) : Store :=
  { σ with cells := (name, s) :: σ.cells.filter (·.1 != name) }

/-- The store with one more name at the end of the order. -/
def enlist (σ : Store) (name : Bytes) : Store := { σ with order := σ.order ++ [name] }

/-- What is looked up after a variable was put. -/
theorem cell?_put (σ : Store) (name : Bytes) (s : Symbol) (n : Bytes) :
    (σ.put name s).cell? n = if n = name then some s else σ.cell? n := by
  have hother : n ≠ name → (σ.cells.filter (·.1 != name)).lookup n = σ.cells.lookup n := by
    intro hn
    induction σ.cells with
    | nil => rfl
    | cons c cells ih =>
        by_cases hc : c.1 = name
        · have hnc : (n == c.1) = false := by simpa [hc] using hn
          rw [List.filter_cons_of_neg (by simpa using hc), ih, List.lookup_cons, hnc]
        · rw [List.filter_cons_of_pos (by simpa using hc), List.lookup_cons, List.lookup_cons, ih]
  rw [cell?, put, List.lookup_cons]
  by_cases hn : n = name
  · simp [hn]
  · have hbeq : (n == name) = false := by simpa using hn
    rw [hbeq, if_neg hn]
    exact hother hn

/-- Listing a name changes no variable. -/
theorem cell?_enlist (σ : Store) (name n : Bytes) : (σ.enlist name).cell? n = σ.cell? n := rfl

/-! ## Changes -/

/-- Declares a variable.  A name that the map has takes the value if the kinds agree; a new name is
put into the map and then listed. -/
def declare (name : Bytes) (v : Value) (line : Int) : Change Store TableError Unit := do
  match (← get).cell? name with
  | some s =>
    if s.value.kind = v.kind then modify (·.put name { s with value := v })
    else throw (.redeclared name s.value.kind s.line v.kind)
  | none =>
    modify (·.put name ⟨name, v, line⟩)
    modify (·.enlist name)

/-- Gives a variable a new value of its kind. -/
def update (name : Bytes) (v : Value) : Change Store TableError Unit := do
  match (← get).cell? name with
  | some s =>
    if s.value.kind = v.kind then modify (·.put name { s with value := v })
    else throw (.misassigned name s.value.kind v.kind)
  | none => throw (.undeclared name)

/-- **What a declaration leaves.**  It fails before its first write. -/
theorem on_declare (σ : Store) (name : Bytes) (v : Value) (line : Int) :
    (declare name v line).on σ =
      match σ.cell? name with
      | some s =>
        if s.value.kind = v.kind then (.ok (), σ.put name { s with value := v })
        else (.error (.redeclared name s.value.kind s.line v.kind), σ)
      | none => (.ok (), (σ.put name ⟨name, v, line⟩).enlist name) := by
  simp only [declare, Change.on_bind, Change.on_get]
  cases σ.cell? name with
  | none => simp only [Change.on_bind, Change.on_modify]
  | some s =>
      dsimp only
      split
      · exact Change.on_modify _ σ
      · exact Change.on_throw _ σ

/-- **What a new value leaves.**  It fails before its only write. -/
theorem on_update (σ : Store) (name : Bytes) (v : Value) :
    (update name v).on σ =
      match σ.cell? name with
      | some s =>
        if s.value.kind = v.kind then (.ok (), σ.put name { s with value := v })
        else (.error (.misassigned name s.value.kind v.kind), σ)
      | none => (.error (.undeclared name), σ) := by
  simp only [update, Change.on_bind, Change.on_get]
  cases σ.cell? name with
  | none => exact Change.on_throw _ σ
  | some s =>
      dsimp only
      split
      · exact Change.on_modify _ σ
      · exact Change.on_throw _ σ

/-! ## The map and the order in step -/

/-- The order lists the names of the map, each once, and a variable stands under its name. -/
structure InStep (σ : Store) : Prop where
  nodup : σ.order.Nodup
  named : ∀ n s, σ.cell? n = some s → s.name = n
  listed : ∀ n, n ∈ σ.order ↔ (σ.cell? n).isSome

namespace InStep

variable {σ : Store}

/-- Nothing is in step with nothing. -/
theorem empty : Store.empty.InStep := by
  refine ⟨.nil, ?_, ?_⟩
  · intro n s h
    cases h
  · intro n
    simp [Store.empty, cell?]

/-- A variable that is there can take another value. -/
theorem assign (h : σ.InStep) {name : Bytes} {s : Symbol} (hs : σ.cell? name = some s) (v : Value) :
    (σ.put name { s with value := v }).InStep := by
  refine ⟨h.nodup, ?_, ?_⟩
  · intro n y hy
    rw [cell?_put] at hy
    split at hy
    · next hn =>
        cases hy
        exact (h.named name s hs).trans hn.symm
    · exact h.named n y hy
  · intro n
    rw [cell?_put]
    show n ∈ σ.order ↔ _
    split
    · next hn =>
        rw [hn, h.listed, hs]
        simp
    · exact h.listed n

/-- A new variable comes into the map and into the order. -/
theorem add (h : σ.InStep) {name : Bytes} (hnone : σ.cell? name = none) (v : Value) (line : Int) :
    ((σ.put name ⟨name, v, line⟩).enlist name).InStep := by
  have hfresh : name ∉ σ.order := by
    rw [h.listed, hnone]
    simp
  refine ⟨?_, ?_, ?_⟩
  · show (σ.order ++ [name]).Nodup
    rw [List.nodup_append]
    refine ⟨h.nodup, by simp, ?_⟩
    intro a ha b hb hab
    rw [List.mem_singleton] at hb
    exact hfresh (hb ▸ hab ▸ ha)
  · intro n y hy
    rw [cell?_enlist, cell?_put] at hy
    split at hy
    · next hn =>
        cases hy
        exact hn.symm
    · exact h.named n y hy
  · intro n
    show n ∈ σ.order ++ [name] ↔ _
    rw [cell?_enlist, cell?_put, List.mem_append, List.mem_singleton, h.listed]
    split
    · next hn => simp [hn]
    · next hn => simp [hn]

/-- The variables have the names of the order. -/
theorem names (h : σ.InStep) : σ.symbols.map Symbol.name = σ.order := by
  have hpart : ∀ ns : List Bytes, (∀ n ∈ ns, n ∈ σ.order) →
      (ns.filterMap σ.cell?).map Symbol.name = ns := by
    intro ns
    induction ns with
    | nil => exact fun _ => rfl
    | cons n ns ih =>
        intro hns
        obtain ⟨s, hs⟩ := Option.isSome_iff_exists.1 ((h.listed n).1 (hns n List.mem_cons_self))
        rw [List.filterMap_cons_some hs, List.map_cons, h.named n s hs,
          ih fun m hm => hns m (List.mem_cons_of_mem n hm)]
  exact hpart σ.order fun _ hn => hn

/-- The table of the variables, in their order. -/
def table (h : σ.InStep) : Table := ⟨σ.symbols, by
  rw [h.names]
  exact h.nodup⟩

end InStep

/-! ## Changes that keep the store in step -/

/-- A declaration writes the map and the order, or neither. -/
theorem preserves_declare (name : Bytes) (v : Value) (line : Int) :
    (declare name v line).Preserves InStep := by
  intro σ hσ
  rw [on_declare]
  split
  · next s hs =>
      split
      · exact hσ.assign hs v
      · exact hσ
  · next hnone => exact hσ.add hnone v line

/-- A new value is written to the map alone. -/
theorem preserves_update (name : Bytes) (v : Value) : (update name v).Preserves InStep := by
  intro σ hσ
  rw [on_update]
  split
  · next s hs =>
      split
      · exact hσ.assign hs v
      · exact hσ
  · exact hσ

end Store

end LineCalc
