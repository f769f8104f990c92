import LineCalc.Proofs.Statement.Effect
import LineCalc.Statement.Run
/-!
# How a statement is carried out

A statement that fails does so before its first write, on each of the ways in which it can fail.
One that succeeds leaves the store in step, with the table that executing it on the table gives.

* `Statement.Fails` : the ways in which a statement can fail;
* `Statement.on_run_eq_error_iff` : it fails in no other way, and leaves the store as it was;
* `Statement.mirrors_run` : on the store it does what it does to the table;
* `Statement.run_touches_target_only` : it rebinds its target or changes nothing.
-/
namespace LineCalc

/-- A change of the table with its error in other words and another result is mirrored by the same
change of the store. -/
theorem Store.Mirrors.finish {ε ε' β : Type} {σ : Store} {x : Except ε Table}
    {p : Except ε Unit × Store} (h : Mirrors σ (x.map (·, ())) p) (f : ε → ε') (b : β) :
    Mirrors σ ((x.mapError f).map (·, b)) ((p.1.mapError f).map fun _ => b, p.2) := by
  cases x with
  | error e =>
      rw [h.of_error]
      exact .error (f e)
  | ok t =>
      obtain ⟨h', rfl, hok⟩ := h.of_ok
      rw [hok]
      exact .ok h' b

namespace Statement

/-! ## The ways to fail -/

/-- The ways in which a statement fails on a store, each with its complaint. -/
inductive Fails (σ : Store) : Statement → Diagnostic → Prop
  /-- The word of a declaration is no type. -/
  | type {type name : Token} {value : Option Literal} (h : Kind.ofText? type.lexeme = none) :
      Fails σ (declaration type name value) ⟨.declaration, type, [type.lexeme]⟩
  /-- The literal of a declaration is no value of its kind. -/
  | initial {type name : Token} {l : Literal} {k : Kind} (hk : Kind.ofText? type.lexeme = some k)
      (h : Value.read? k l.text = none) :
      Fails σ (declaration type name (some l)) ⟨.literal, l.token, [k.text, l.text]⟩
  /-- The name of a declaration is there with the other kind. -/
  | redeclared {type name : Token} {value : Option Literal} {v : Value} {y : Symbol}
      (hv : declaredValue type value = .ok v) (hy : σ.cell? name.lexeme = some y)
      (h : y.value.kind ≠ v.kind) :
      Fails σ (declaration type name value)
        (refusal name (.redeclared name.lexeme y.value.kind y.line v.kind))
  /-- The target of an assignment is not there. -/
  | target {name : Token} {value : Expr} (h : σ.find? name.lexeme = none) :
      Fails σ (assignment name value) ⟨.undeclared, name, [name.lexeme]⟩
  /-- The variable that is assigned is not there. -/
  | source {name source : Token} {w : Value} (hw : σ.find? name.lexeme = some w)
      (h : σ.find? source.lexeme = none) :
      Fails σ (assignment name (.ident source)) ⟨.undeclared, source, [source.lexeme]⟩
  /-- The variable that is assigned has the other kind. -/
  | kinds {name source : Token} {w v : Value} (hw : σ.find? name.lexeme = some w)
      (hv : σ.find? source.lexeme = some v) (h : v.kind ≠ w.kind) :
      Fails σ (assignment name (.ident source)) ⟨.mismatch, source,
        [utf8 "cannot assign " ++ v.kind.text ++ utf8 " variable " ++ source.lexeme ++
          utf8 " to " ++ w.kind.text ++ utf8 " variable " ++ name.lexeme]⟩
  /-- The literal that is assigned is no value of the kind. -/
  | literal {name : Token} {l : Literal} {w : Value} (hw : σ.find? name.lexeme = some w)
      (h : Value.read? w.kind l.text = none) :
      Fails σ (assignment name (.number l)) ⟨.literal, l.token, [w.kind.text, l.text]⟩
  /-- What is assigned has a sign of its own. -/
  | sign {name op : Token} {e : Expr} {w : Value} (hw : σ.find? name.lexeme = some w) :
      Fails σ (assignment name (.unary op e)) ⟨.assignment, name, [name.lexeme]⟩
  /-- What is assigned has an operator. -/
  | operator {name op : Token} {l r : Expr} {w : Value} (hw : σ.find? name.lexeme = some w) :
      Fails σ (assignment name (.binary op l r)) ⟨.assignment, name, [name.lexeme]⟩
  /-- A leaf of what is printed has no value. -/
  | leaf {keyword : Token} {line body : Bytes} {e : Expr} {d : Diagnostic}
      (h : e.eval σ.find? = .error d) : Fails σ (print keyword line body (some e)) d
  /-- The result cannot be shown. -/
  | result {keyword : Token} {line body : Bytes} {e : Expr} {r : Result}
      (hr : e.eval σ.find? = .ok r) (h : r.toText? = none) :
      Fails σ (print keyword line body (some e)) ⟨.arithmetic, keyword, [divisionByZero]⟩

variable {σ σ' : Store} {d : Diagnostic}

/-- A declaration that fails has written nothing. -/
theorem fails_of_runDeclaration {type name : Token} {value : Option Literal}
    (h : (runDeclaration type name value).on σ = (.error d, σ')) :
    σ' = σ ∧ Fails σ (declaration type name value) d := by
  rw [on_runDeclaration] at h
  cases hv : declaredValue type value with
  | error d' =>
      simp only [hv] at h
      cases h
      refine ⟨rfl, ?_⟩
      unfold declaredValue at hv
      cases hk : Kind.ofText? type.lexeme with
      | none =>
          simp only [hk] at hv
          cases hv
          exact .type hk
      | some k =>
          cases value with
          | none =>
              simp only [hk] at hv
              cases hv
          | some l =>
              simp only [hk, literalValue] at hv
              cases hl : Value.read? k l.text with
              | none =>
                  simp only [hl] at hv
                  cases hv
                  exact .initial hk hl
              | some v =>
                  simp only [hl] at hv
                  cases hv
  | ok v =>
      simp only [hv, Store.on_declare] at h
      cases hy : σ.cell? name.lexeme with
      | none =>
          simp only [hy] at h
          cases h
      | some y =>
          by_cases hkind : y.value.kind = v.kind
          · simp only [hy, hkind, if_true] at h
            cases h
          · simp only [hy, hkind, if_false] at h
            cases h
            exact ⟨rfl, .redeclared hv hy hkind⟩

/-- Where a value cannot be assigned, the assignment fails. -/
theorem fails_of_assignedValue {name : Token} {value : Expr} {w : Value}
    (hw : σ.find? name.lexeme = some w)
    (h : assignedValue σ.find? name w.kind value = .error d) :
    Fails σ (assignment name value) d := by
  cases value with
  | ident source =>
      simp only [assignedValue] at h
      split at h
      · next hs =>
          cases h
          exact .source hw hs
      · next v hs =>
          split at h
          · cases h
          · next hkind =>
              cases h
              exact .kinds hw hs hkind
  | number l =>
      simp only [assignedValue, literalValue] at h
      split at h
      · cases h
      · next hl =>
          cases h
          exact .literal hw hl
  | unary op e =>
      cases h
      exact .sign hw
  | binary op l r =>
      cases h
      exact .operator hw

/-- What is assigned has the kind of its target. -/
theorem kind_of_assignedValue {scope : Scope} {name : Token} {k : Kind} {value : Expr} {v : Value}
    (h : assignedValue scope name k value = .ok v) : v.kind = k := by
  cases value with
  | ident source =>
      simp only [assignedValue] at h
      split at h
      · cases h
      · split at h
        · next hkind =>
            cases h
            exact hkind
        · cases h
  | number l => exact Value.kind_of_read? (literalValue_eq_ok_iff.1 h)
  | unary op e => cases h
  | binary op l r => cases h

/-- The value of an assignment that has come so far is taken by the store. -/
theorem on_update_of_assignedValue {name : Token} {value : Expr} {w v : Value}
    (hw : σ.find? name.lexeme = some w)
    (hv : assignedValue σ.find? name w.kind value = .ok v) :
    ∃ y, σ.cell? name.lexeme = some y ∧
      (Store.update name.lexeme v).on σ = (.ok (), σ.put name.lexeme { y with value := v }) := by
  obtain ⟨y, hy, rfl⟩ := Option.map_eq_some_iff.1 hw
  refine ⟨y, hy, ?_⟩
  rw [Store.on_update, hy]
  exact if_pos (kind_of_assignedValue hv).symm

/-- An assignment that fails has written nothing. -/
theorem fails_of_runAssignment {name : Token} {value : Expr}
    (h : (runAssignment name value).on σ = (.error d, σ')) :
    σ' = σ ∧ Fails σ (assignment name value) d := by
  rw [on_runAssignment] at h
  cases hw : σ.find? name.lexeme with
  | none =>
      simp only [hw] at h
      cases h
      exact ⟨rfl, .target hw⟩
  | some w =>
      simp only [hw] at h
      cases hv : assignedValue σ.find? name w.kind value with
      | error d' =>
          simp only [hv] at h
          cases h
          exact ⟨rfl, fails_of_assignedValue hw hv⟩
      | ok v =>
          -- nothing goes wrong behind the last check
          obtain ⟨y, -, hupdate⟩ := on_update_of_assignedValue hw hv
          simp only [hv, hupdate] at h
          cases h

/-- A print that fails has written nothing. -/
theorem fails_of_execPrint {keyword : Token} {line body : Bytes} {e : Expr}
    (h : execPrint σ.find? keyword e = .error d) :
    Fails σ (print keyword line body (some e)) d := by
  rcases Except.bind_eq_error_iff.1 h with h | ⟨r, hr, h⟩
  · exact .leaf h
  · cases hshown : r.toText? with
    | none =>
        simp only [hshown] at h
        cases h
        exact .result hr hshown
    | some v =>
        simp only [hshown] at h
        cases h

/-- On each of these ways a statement does fail, and leaves the store as it was. -/
theorem Fails.on_run {s : Statement} (h : s.Fails σ d) : s.run.on σ = (.error d, σ) := by
  cases h with
  | type h => simp [on_run_declaration, on_runDeclaration, declaredValue, h, Except.map]
  | initial hk h =>
      simp [on_run_declaration, on_runDeclaration, declaredValue, literalValue, hk, h, Except.map]
  | redeclared hv hy h =>
      simp [on_run_declaration, on_runDeclaration, Store.on_declare, hv, hy, h, Except.map,
        Except.mapError]
  | target h => simp [on_run_assignment, on_runAssignment, h, Except.map]
  | source hw h => simp [on_run_assignment, on_runAssignment, assignedValue, hw, h, Except.map]
  | kinds hw hv h =>
      simp [on_run_assignment, on_runAssignment, assignedValue, hw, hv, h, Except.map]
  | literal hw h =>
      simp [on_run_assignment, on_runAssignment, assignedValue, literalValue, hw, h, Except.map]
  | sign hw => simp [on_run_assignment, on_runAssignment, assignedValue, hw, Except.map]
  | operator hw => simp [on_run_assignment, on_runAssignment, assignedValue, hw, Except.map]
  | leaf h => simp [on_run_print, execPrint, h, bind, Except.bind]
  | result hr h =>
      simp [on_run_print, execPrint, hr, h, bind, Except.bind, throw, throwThe,
        MonadExceptOf.throw]

/-- **A statement fails in no other way**, and on each of them it leaves the store as it was. -/
theorem on_run_eq_error_iff {s : Statement} :
    s.run.on σ = (.error d, σ') ↔ σ' = σ ∧ s.Fails σ d := by
  constructor
  · intro h
    cases s with
    | declaration type name value =>
        rw [on_run_declaration] at h
        obtain ⟨hresult, hstore⟩ := Prod.mk.inj h
        exact fails_of_runDeclaration (Prod.ext (Except.map_eq_error_iff.1 hresult) hstore)
    | assignment name value =>
        rw [on_run_assignment] at h
        obtain ⟨hresult, hstore⟩ := Prod.mk.inj h
        exact fails_of_runAssignment (Prod.ext (Except.map_eq_error_iff.1 hresult) hstore)
    | print keyword line body value =>
        rw [on_run_print] at h
        obtain ⟨hresult, hstore⟩ := Prod.mk.inj h
        cases value with
        | none => cases hresult
        | some e => exact ⟨hstore.symm, fails_of_execPrint hresult⟩
  · rintro ⟨rfl, h⟩
    exact h.on_run

/-! ## The store and the table -/

/-- **A statement does to the store what it does to the table.**  Both are left as they were, or
the store is in step, with the table after the statement. -/
theorem mirrors_run (h : σ.InStep) (s : Statement) :
    Store.Mirrors σ (s.exec h.table) (s.run.on σ) := by
  cases s with
  | declaration type name value =>
      rw [on_run_declaration, on_runDeclaration, exec, execDeclaration]
      cases declaredValue type value with
      | error d => exact .error d
      | ok v => exact (Store.mirrors_declare h name.lexeme v type.line).finish (refusal name) []
  | assignment name value =>
      rw [on_run_assignment, on_runAssignment, exec, execAssignment, h.find?_table]
      cases σ.find? name.lexeme with
      | none => exact .error _
      | some w =>
          dsimp only
          cases assignedValue σ.find? name w.kind value with
          | error d => exact .error d
          | ok v => exact (Store.mirrors_update h name.lexeme v).finish (refusal name) []
  | print keyword line body value =>
      rw [on_run_print]
      cases value with
      | none => exact .ok h []
      | some e =>
          rw [exec, h.find?_table]
          dsimp only
          cases execPrint σ.find? keyword e with
          | error d => exact .error d
          | ok out => exact .ok h out

/-- A statement that is carried out writes the lines, and leaves the table, of its execution. -/
theorem exec_of_on_run (h : σ.InStep) {s : Statement} {out : List Bytes}
    (hrun : s.run.on σ = (.ok out, σ')) :
    ∃ h' : σ'.InStep, s.exec h.table = .ok (h'.table, out) := by
  have hmirrors := mirrors_run h s
  rw [hrun] at hmirrors
  generalize s.exec h.table = x at hmirrors
  cases hmirrors with
  | ok h' => exact ⟨h', rfl⟩

/-- Where a statement fails, the store refuses any call that could have stored its value: a call
that is taken would have made the statement succeed. -/
theorem Fails.on_call (h : σ.InStep) {s : Statement} (hfails : s.Fails σ d) {v : Value}
    {c : Table.Call} (hv : s.Stores h.table v) (hc : s.call? v = some c) :
    ∃ e, (Store.call c).on σ = (.error e, σ) := by
  have hmirrors := Store.mirrors_call h c
  cases hcall : h.table.call c with
  | error e =>
      rw [hcall] at hmirrors
      exact ⟨e, hmirrors.of_error⟩
  | ok t' =>
      have hexec := (exec_eq_ok_iff (name_of_call? hc).1).2 ⟨rfl, v, c, hv, hc, hcall⟩
      have hrun := mirrors_run h s
      rw [hexec, hfails.on_run] at hrun
      cases hrun.of_ok.2.2

/-! ## Statements touch their target only -/

/-- **Statements are atomic and touch only their target.**  Let a statement be carried out on a
store in step, as a store is after any calls.

* If it fails, the map and the order are as they were, on each of the ways to fail, and the store
  refuses any call that could have stored its value.
* If it succeeds, the store is in step, and if it has a target, it rebinds that name, to the value
  that it stores, and nothing else.
* If it is a print, the store is as it was in any case.
* A call that is refused leaves the store as it was, and every refusal is one of the two that
  complaints are made of.
* The value of an assignment that has come so far is always taken by the store. -/
theorem run_touches_target_only (h : σ.InStep) (s : Statement) :
    let t := h.table
    (∀ d σ', s.run.on σ = (.error d, σ') → σ' = σ ∧ s.Fails σ d ∧
      ∀ v c, s.Stores t v → s.call? v = some c → ∃ e, (Store.call c).on σ = (.error e, σ)) ∧
    (∀ out σ', s.run.on σ = (.ok out, σ') → ∃ h' : σ'.InStep,
      ∀ name, s.target? = some name → ∃ v, s.Stores t v ∧ t.Rebinds name v h'.table) ∧
    (s.target? = none → (s.run.on σ).2 = σ) ∧
    (∀ c e name σ', (Store.call c).on σ = (.error e, σ') → σ' = σ ∧
      ((t.symbol? c.name = none ∧ e.message = utf8 "variable not declared: " ++ e.detail ∧
        refusal name e = ⟨.undeclared, name, [name.lexeme]⟩) ∨
      (∃ y, t.symbol? c.name = some y ∧ y.value.kind ≠ c.value.kind ∧
        e.message = utf8 "kind mismatch: " ++ e.detail ∧
        refusal name e = ⟨.mismatch, name, [e.detail]⟩))) ∧
    ∀ name value w v, σ.find? name.lexeme = some w →
      assignedValue σ.find? name w.kind value = .ok v →
      ∃ σ', (Store.update name.lexeme v).on σ = (.ok (), σ') := by
  intro t
  refine ⟨?_, ?_, ?_, ?_, ?_⟩
  · intro d σ' hrun
    obtain ⟨rfl, hfails⟩ := on_run_eq_error_iff.1 hrun
    exact ⟨rfl, hfails, fun v c hv hc => hfails.on_call h hv hc⟩
  · intro out σ' hrun
    obtain ⟨h', hexec⟩ := exec_of_on_run h hrun
    refine ⟨h', ?_⟩
    intro name hname
    obtain ⟨-, v, c, hv, hc, hcall⟩ := (exec_eq_ok_iff hname).1 hexec
    obtain ⟨htarget, rfl⟩ := name_of_call? hc
    obtain rfl : c.name = name := Option.some.inj (htarget.symm.trans hname)
    exact ⟨c.value, hv, Table.rebinds_of_call hcall⟩
  · intro hnone
    cases s with
    | declaration type name value => cases hnone
    | assignment name value => cases hnone
    | print keyword line body value => rw [on_run_print]
  · intro c e name σ' hcall
    have hmirrors := Store.mirrors_call h c
    cases htaken : h.table.call c with
    | error e' =>
        rw [htaken] at hmirrors
        cases hcall.symm.trans hmirrors.of_error
        exact ⟨rfl, refusal_of_call name htaken⟩
    | ok t' =>
        rw [htaken, hcall] at hmirrors
        cases hmirrors.of_ok.2.2
  · intro name value w v hw hv
    obtain ⟨y, -, hupdate⟩ := on_update_of_assignedValue hw hv
    exact ⟨_, hupdate⟩

/-- An integer `x` takes a literal, which rebinds it, and refuses the value of a double, which
leaves the store as it is. -/
theorem run_touches_target_only_int :
    let σ := Store.replay
      [.declare (utf8 "x") (.int 4) 1, .declare (utf8 "d") (.double .zero) 2]
    let x : Token := ⟨.ident, utf8 "x", 3, 1⟩
    let plain := assignment x (.number ⟨none, ⟨.number, utf8 "5", 3, 5⟩⟩)
    let mixed := assignment x (.ident ⟨.ident, utf8 "d", 3, 5⟩)
    (∃ σ' v, plain.run.on σ = (.ok [], σ') ∧ plain.target? = some (utf8 "x") ∧
      ∃ (h : σ.InStep) (h' : σ'.InStep), plain.Stores h.table v ∧
        h.table.Rebinds (utf8 "x") v h'.table) ∧
    ∃ d, d.code = .mismatch ∧ mixed.run.on σ = (.error d, σ) := by
  intro σ x plain mixed
  obtain ⟨h, -⟩ := Store.exists_table_replay
    [.declare (utf8 "x") (.int 4) 1, .declare (utf8 "d") (.double .zero) 2]
  have htaken : (plain.run.on σ).1 = .ok [] := by decide
  obtain ⟨d, hcode, hrefused⟩ : ∃ d : Diagnostic, d.code = .mismatch ∧
      (mixed.run.on σ).1 = .error d :=
    ⟨_, rfl, rfl⟩
  obtain ⟨h', hrebinds⟩ := (run_touches_target_only h plain).2.1 [] _ (Prod.ext htaken rfl)
  obtain ⟨v, hv, hbinds⟩ := hrebinds _ rfl
  refine ⟨⟨_, v, Prod.ext htaken rfl, rfl, h, h', hv, hbinds⟩, d, hcode, Prod.ext hrefused ?_⟩
  exact ((run_touches_target_only h mixed).1 d _ (Prod.ext hrefused rfl)).1

end Statement

end LineCalc
