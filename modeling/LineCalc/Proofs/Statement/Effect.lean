import LineCalc.Proofs.Except
import LineCalc.Proofs.Literal
import LineCalc.Proofs.Table.History
import LineCalc.Statement.Exec
/-!
# What a statement does to the table

A statement with a target makes one call on the table, for the value that it stores, and nothing
can go wrong after it.

* `Table.Rebinds` : nothing but the binding of one name differs;
* `Table.rebinds_of_call` : a call of the table does no more;
* `Statement.exec_eq_ok_iff` : a statement succeeds just if the table takes its call;
* `Statement.refusal_of_call` : the complaint about a call that the table refuses.
-/
namespace LineCalc

/-! ## Rebinding one name -/

namespace Table

/-- The tables differ in the binding of one name only, which now has the value: all other variables
are where they were, with their values and lines, and so is the name itself, with its kind and its
line, if it was there. -/
structure Rebinds (t : Table) (name : Bytes) (v : Value) (t' : Table) : Prop where
  others : ∀ (i : Nat) (y : Symbol), y.name ≠ name →
    (t'.symbols[i]? = some y ↔ t.symbols[i]? = some y)
  target : t'.find? name = some v
  kept : ∀ (i : Nat) (y : Symbol), y.name = name → t.symbols[i]? = some y →
    y.value.kind = v.kind ∧ t'.symbols[i]? = some { y with value := v }

variable {t t' : Table}

/-- A name that is there takes a value of its kind. -/
theorem rebinds_set {name : Bytes} {v : Value} {y : Symbol} (hy : t.symbol? name = some y)
    (hkind : y.value.kind = v.kind) : Rebinds t name v (t.set name v) := by
  have hget : ∀ i, (t.set name v).symbols[i]? = t.symbols[i]?.map (Symbol.assign name v) :=
    fun i => List.getElem?_map
  refine ⟨?_, ?_, ?_⟩
  · intro i z hz
    rw [hget]
    cases ht : t.symbols[i]? with
    | none => simp
    | some x =>
        by_cases hx : x.name = name
        · have hne : Symbol.assign name v x ≠ z := by
            rintro rfl
            exact hz (by rw [Symbol.name_assign, hx])
          have hne' : x ≠ z := by
            rintro rfl
            exact hz hx
          simp [hne, hne']
        · simp [Symbol.assign, hx]
  · rw [find?, symbol?_set, if_pos rfl, hy]
    rfl
  · intro i z hz ht
    -- the name is found once, so this is the variable that was looked up
    have hsame : some z = some y := by
      rw [← hy]
      exact (symbol?_eq_some_iff.2 ⟨List.mem_of_getElem? ht, hz⟩).symm
    obtain rfl := Option.some.inj hsame
    refine ⟨hkind, ?_⟩
    rw [hget, ht]
    simp [Symbol.assign, hz]

/-- A new name comes last. -/
theorem rebinds_push {y : Symbol} (h : t.symbol? y.name = none) :
    Rebinds t y.name y.value (t.push y h) := by
  refine ⟨?_, ?_, ?_⟩
  · intro i z hz
    rw [push, List.getElem?_append]
    split
    · rfl
    · next hi =>
        have hnone : t.symbols[i]? = none := List.getElem?_eq_none (Nat.not_lt.1 hi)
        rw [hnone]
        have hne : y ≠ z := by
          rintro rfl
          exact hz rfl
        simp [List.getElem?_singleton, hne]
  · rw [find?, symbol?_push, if_pos rfl]
    rfl
  · intro i z hz ht
    have hmem := List.mem_map_of_mem (f := Symbol.name) (List.mem_of_getElem? ht)
    exact absurd (hz ▸ hmem) (symbol?_eq_none_iff.1 h)

/-- A call that the table takes rebinds its name. -/
theorem rebinds_of_call {c : Call} (h : t.call c = .ok t') : Rebinds t c.name c.value t' := by
  rcases call_ok_cases h with ⟨y, hy, hkind, rfl⟩ | ⟨y, hnone, hc, rfl⟩
  · exact rebinds_set hy hkind
  · obtain ⟨hname, hvalue⟩ := Call.name_of_declaration? hc
    rw [← hname, ← hvalue]
    exact rebinds_push hnone

end Table

/-! ## The call of a statement -/

namespace Statement

/-- The value that a statement stores: the one written in it, zero if a declaration has none, or
that of another variable. -/
def Stores (t : Table) : Statement → Value → Prop
  | declaration type _ none, v => ∃ k, Kind.ofText? type.lexeme = some k ∧ v = .zero k
  | declaration type _ (some l), v =>
      ∃ k, Kind.ofText? type.lexeme = some k ∧ Value.read? k l.text = some v
  | assignment _ (.ident source), v => t.find? source.lexeme = some v
  | assignment name (.number l), v =>
      ∃ w, t.find? name.lexeme = some w ∧ Value.read? w.kind l.text = some v
  | _, _ => False

/-- The call that stores a value in the target of a statement; a print has none. -/
def call? : Statement → Value → Option Table.Call
  | declaration type name _, v => some (.declare name.lexeme v type.line)
  | assignment name _, v => some (.update name.lexeme v)
  | print .., _ => none

/-- The name that a statement writes. -/
def target? : Statement → Option Bytes
  | declaration _ name _ => some name.lexeme
  | assignment name _ => some name.lexeme
  | print .. => none

variable {t t' : Table}

/-- A literal stands for the value that it writes. -/
theorem literalValue_eq_ok_iff {k : Kind} {l : Literal} {v : Value} :
    literalValue k l = .ok v ↔ Value.read? k l.text = some v := by
  unfold literalValue
  cases Value.read? k l.text with
  | none => simp
  | some w => simp

/-- What a declaration stores is its value. -/
theorem declaredValue_eq_ok_iff (t : Table) (type name : Token) {value : Option Literal}
    {v : Value} :
    declaredValue type value = .ok v ↔ (declaration type name value).Stores t v := by
  unfold declaredValue
  cases hk : Kind.ofText? type.lexeme with
  | none => cases value <;> simp [Stores, hk]
  | some k =>
      cases value with
      | none => simp [Stores, hk, eq_comm]
      | some l => simp [Stores, hk, literalValue_eq_ok_iff]

/-- A declaration succeeds just if the table takes its call. -/
theorem execDeclaration_eq_ok_iff {type name : Token} {value : Option Literal} :
    execDeclaration t type name value = .ok t' ↔ ∃ v, (declaration type name value).Stores t v ∧
      t.call (.declare name.lexeme v type.line) = .ok t' := by
  simp only [execDeclaration, Except.bind_eq_ok_iff, Except.mapError_eq_ok_iff,
    declaredValue_eq_ok_iff t type name, Table.call]

/-- What an assignment stores has the kind of its target. -/
theorem assignedValue_eq_ok_iff {name : Token} {value : Expr} {w v : Value}
    (hw : t.find? name.lexeme = some w) :
    assignedValue t name w.kind value = .ok v ↔
      (assignment name value).Stores t v ∧ v.kind = w.kind := by
  cases value with
  | ident source =>
      simp only [assignedValue, Stores]
      cases hs : t.find? source.lexeme with
      | none => simp
      | some u =>
          by_cases hkind : u.kind = w.kind
          · simp only [hkind, if_true, Except.ok.injEq, Option.some.injEq]
            constructor
            · rintro rfl
              exact ⟨rfl, hkind⟩
            · exact And.left
          · simp only [hkind, if_false, reduceCtorEq, Option.some.injEq, false_iff, not_and]
            rintro rfl
            exact hkind
  | number l =>
      simp only [assignedValue, Stores, literalValue_eq_ok_iff, hw, Option.some.injEq,
        exists_eq_left']
      exact ⟨fun h => ⟨h, Value.kind_of_read? h⟩, And.left⟩
  | unary op e => simp [assignedValue, Stores]
  | binary op l r => simp [assignedValue, Stores]

/-- A value of the kind of a name is taken. -/
theorem update_of_find? {name : Bytes} {w v : Value} (hw : t.find? name = some w)
    (hkind : v.kind = w.kind) : t.update name v = .ok (t.set name v) := by
  obtain ⟨y, hy, rfl⟩ := Option.map_eq_some_iff.1 hw
  unfold Table.update
  rw [hy]
  exact if_pos hkind.symm

/-- An assignment succeeds just if the table takes its call. -/
theorem execAssignment_eq_ok_iff {name : Token} {value : Expr} :
    execAssignment t name value = .ok t' ↔ ∃ v, (assignment name value).Stores t v ∧
      t.call (.update name.lexeme v) = .ok t' := by
  unfold execAssignment
  cases hw : t.find? name.lexeme with
  | none =>
      have hnone : ∀ v, t.call (.update name.lexeme v) = .error (.undeclared name.lexeme) := by
        intro v
        have hsymbol : t.symbol? name.lexeme = none := Option.map_eq_none_iff.1 hw
        exact Table.update_eq_error_iff.2 (.inl ⟨hsymbol, rfl⟩)
      simp [hnone]
  | some w =>
      simp only [Except.bind_eq_ok_iff, Except.mapError_eq_ok_iff, assignedValue_eq_ok_iff hw]
      constructor
      · rintro ⟨v, ⟨hv, -⟩, hupdate⟩
        exact ⟨v, hv, hupdate⟩
      · rintro ⟨v, hv, hupdate⟩
        -- the table has compared the kinds
        have hkind : v.kind = w.kind := by
          obtain ⟨y, hy, rfl⟩ := Option.map_eq_some_iff.1 hw
          by_contra hne
          have herror := Table.update_eq_error_iff.2 (.inr ⟨y, hy, Ne.symm hne, rfl⟩)
          have hupdate : t.update name.lexeme v = .ok t' := hupdate
          rw [herror] at hupdate
          cases hupdate
        exact ⟨v, ⟨hv, hkind⟩, hupdate⟩

/-- **A statement with a target is one call.**  It succeeds just if the table takes the call for the
value that it stores, and then it writes nothing. -/
theorem exec_eq_ok_iff {s : Statement} {name : Bytes} (hs : s.target? = some name)
    {out : List Bytes} :
    s.exec t = .ok (t', out) ↔
      out = [] ∧ ∃ v c, s.Stores t v ∧ s.call? v = some c ∧ t.call c = .ok t' := by
  have hpair : ∀ x : Except Diagnostic Table, x.map (·, ([] : List Bytes)) = .ok (t', out) ↔
      out = [] ∧ x = .ok t' := by
    intro x
    rw [Except.map_eq_ok_iff]
    grind
  cases s with
  | declaration type n value => simp [exec, hpair, execDeclaration_eq_ok_iff, call?]
  | assignment n value => simp [exec, hpair, execAssignment_eq_ok_iff, call?]
  | print keyword line body value => cases hs

/-- The call of a statement is about its target. -/
theorem name_of_call? {s : Statement} {v : Value} {c : Table.Call} (h : s.call? v = some c) :
    s.target? = some c.name ∧ c.value = v := by
  cases s with
  | declaration type n value =>
      cases h
      exact ⟨rfl, rfl⟩
  | assignment n value =>
      cases h
      exact ⟨rfl, rfl⟩
  | print keyword line body value => cases h

/-- The complaint about a call that the table refuses: that the name is not there, or that it is
there with the other kind. -/
theorem refusal_of_call {c : Table.Call} {e : TableError} (name : Token)
    (h : t.call c = .error e) :
    (t.symbol? c.name = none ∧ e.message = utf8 "variable not declared: " ++ e.detail ∧
      refusal name e = ⟨.undeclared, name, [name.lexeme]⟩) ∨
    (∃ y, t.symbol? c.name = some y ∧ y.value.kind ≠ c.value.kind ∧
      e.message = utf8 "kind mismatch: " ++ e.detail ∧
      refusal name e = ⟨.mismatch, name, [e.detail]⟩) := by
  cases c with
  | declare n v line =>
      obtain ⟨y, hy, hkind, rfl⟩ := Table.declare_eq_error_iff.1 h
      exact .inr ⟨y, hy, hkind, rfl, rfl⟩
  | update n v =>
      rcases Table.update_eq_error_iff.1 h with ⟨hnone, rfl⟩ | ⟨y, hy, hkind, rfl⟩
      · exact .inl ⟨hnone, rfl, rfl⟩
      · exact .inr ⟨y, hy, hkind, rfl, rfl⟩

end Statement

end LineCalc
