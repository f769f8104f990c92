import LineCalc.Proofs.Literal
import LineCalc.Proofs.Statement.Outline
import LineCalc.Proofs.Table
import LineCalc.Statement.Exec
/-!
# Valid statements

A statement is valid where it uses declared variables only, at their kinds, and its literals are
values.  What is declared is given by a relation between names and kinds.

* `Statement.Valid`, `Statement.declares` : what a statement needs, and what it adds;
* `Statement.exec_of_valid` : a valid statement is executed, except that a result may be no number.
-/
namespace LineCalc

/-! ## Validity -/

/-- The variables of the expression are declared and its literals are values. -/
def Expr.Valid (D : Bytes → Kind → Prop) : Expr → Prop
  | number l => (Value.read? (literalKind l) l.text).isSome
  | ident t => ∃ k, D t.lexeme k
  | unary _ e => e.Valid D
  | binary _ l r => l.Valid D ∧ r.Valid D

namespace Statement

/-- The right side of an assignment is a variable or a literal of the kind. -/
def SourceValid (D : Bytes → Kind → Prop) (k : Kind) : Expr → Prop
  | .ident t => D t.lexeme k
  | .number l => (Value.read? k l.text).isSome
  | _ => False

/-- A declaration gives a name its kind and a value of that kind; an assignment is to a declared
variable, from a variable or a literal of its kind; a print has a valid expression. -/
def Valid (D : Bytes → Kind → Prop) : Statement → Prop
  | declaration t n v => ∃ k, Kind.ofText? t.lexeme = some k ∧ (∀ k', D n.lexeme k' → k' = k) ∧
      ∀ l ∈ v, (Value.read? k l.text).isSome
  | assignment n e => ∃ k, D n.lexeme k ∧ SourceValid D k e
  | print _ _ _ v => ∃ e, v = some e ∧ e.Valid D

/-- The name and the kind that a declaration declares. -/
def declares : Statement → Bytes → Kind → Prop
  | declaration t n _, name, k => n.lexeme = name ∧ Kind.ofText? t.lexeme = some k
  | _, _, _ => False

end Statement

/-- Validity hangs on no place. -/
theorem Expr.valid_unplaced (D : Bytes → Kind → Prop) (e : Expr) :
    e.unplaced.Valid D ↔ e.Valid D := by
  induction e with
  | number l =>
      have hkind : literalKind l.unplaced = literalKind l := by
        rw [literalKind, Literal.isFractional, l.text_unplaced]
        rfl
      rw [unplaced, Valid, hkind, l.text_unplaced]
      rfl
  | ident t => rfl
  | unary t e ih => exact ih
  | binary t l r ihl ihr => rw [unplaced, Valid, ihl, ihr]; rfl

/-- A valid operand behind a valid tree keeps it valid. -/
theorem Expr.Valid.graft {D : Bytes → Kind → Prop} {e a : Expr} (op : Token) (he : e.Valid D)
    (ha : a.Valid D) : (e.graft op a).Valid D := by
  cases hbin : e.isBinary with
  | false =>
      rw [graft_of_isBinary_eq_false op a hbin]
      exact ⟨he, ha⟩
  | true =>
      obtain ⟨t, l, r, rfl⟩ := exists_of_isBinary hbin
      simp only [Expr.graft]
      split
      · exact ⟨he.1, he.2, ha⟩
      · exact ⟨he, ha⟩

/-- A chain of valid operands is valid. -/
theorem Expr.Valid.chain {D : Bytes → Kind → Prop} {more : List (Token × Expr)} :
    ∀ {first : Expr}, first.Valid D → (∀ p ∈ more, p.2.Valid D) → (chain first more).Valid D := by
  induction more with
  | nil => exact fun hfirst _ => hfirst
  | cons p more ih =>
      intro first hfirst hmore
      obtain ⟨hp, hmore⟩ := List.forall_mem_cons.1 hmore
      exact ih (hfirst.graft p.1 hp) hmore

namespace Statement

/-- A right side is valid at every place. -/
theorem sourceValid_unplaced (D : Bytes → Kind → Prop) (k : Kind) (e : Expr) :
    SourceValid D k e.unplaced ↔ SourceValid D k e := by
  cases e with
  | number l => rw [Expr.unplaced, SourceValid, l.text_unplaced]; rfl
  | ident t => rfl
  | unary t e => rfl
  | binary t l r => rfl

/-- Validity hangs on the outline only. -/
theorem valid_outline (D : Bytes → Kind → Prop) (s : Statement) :
    s.outline.Valid D ↔ s.Valid D := by
  cases s with
  | declaration t n v =>
      cases v with
      | none => rfl
      | some l =>
          simp only [outline, Valid, Option.map_some, Option.mem_some_iff, forall_eq',
            Literal.text_unplaced]
          rfl
  | assignment n e =>
      simp only [outline, Valid, sourceValid_unplaced]
      rfl
  | print k line body v =>
      cases v with
      | none => rfl
      | some e =>
          simp only [outline, Valid, Option.map_some, Option.some.injEq, exists_eq_left',
            Expr.valid_unplaced]

/-- What is declared hangs on the outline only. -/
theorem declares_outline (s : Statement) : s.outline.declares = s.declares := by
  cases s <;> rfl

end Statement

/-! ## Execution -/

/-- The table has a variable of the name and the kind. -/
def Table.Declares (t : Table) (name : Bytes) (k : Kind) : Prop :=
  ∃ y, t.symbol? name = some y ∧ y.value.kind = k

/-- The empty table declares nothing. -/
theorem Table.not_declares_empty (name : Bytes) (k : Kind) : ¬ Table.empty.Declares name k := by
  rintro ⟨y, hy, -⟩
  cases hy

/-- The value of a declared variable. -/
theorem Table.Declares.find? {t : Table} {name : Bytes} {k : Kind} (h : t.Declares name k) :
    ∃ v, t.find? name = some v ∧ v.kind = k := by
  obtain ⟨y, hy, hk⟩ := h
  exact ⟨y.value, by rw [Table.find?, hy]; rfl, hk⟩

/-- A valid expression has a value. -/
theorem Expr.eval_of_valid {t : Table} {e : Expr} (h : e.Valid t.Declares) :
    ∃ r, e.eval t = .ok r := by
  induction e with
  | number l =>
      obtain ⟨v, hv⟩ := Option.isSome_iff_exists.1 h
      rw [eval, evalLiteral, ← literalKind, hv]
      exact ⟨_, rfl⟩
  | ident name =>
      obtain ⟨k, hk⟩ := h
      obtain ⟨v, hv, -⟩ := hk.find?
      rw [eval, evalName, hv]
      exact ⟨_, rfl⟩
  | unary op e ih =>
      obtain ⟨r, hr⟩ := ih h
      rw [eval, hr]
      exact ⟨_, rfl⟩
  | binary op l r ihl ihr =>
      obtain ⟨x, hx⟩ := ihl h.1
      obtain ⟨y, hy⟩ := ihr h.2
      rw [eval, hx, hy]
      exact ⟨_, rfl⟩

namespace Statement

/-- A literal that is a value of the kind. -/
theorem literalValue_of_isSome {k : Kind} {l : Literal} (h : (Value.read? k l.text).isSome) :
    ∃ v, literalValue k l = .ok v ∧ v.kind = k := by
  obtain ⟨v, hv⟩ := Option.isSome_iff_exists.1 h
  exact ⟨v, by rw [literalValue, hv], Value.kind_of_read? hv⟩

/-- The value of a declaration without one is of its kind. -/
theorem kind_zero (k : Kind) : (Value.zero k).kind = k := by
  cases k <;> rfl

/-- A valid declaration is executed and adds what it declares. -/
theorem execDeclaration_of_valid {t : Table} {type name : Token} {value : Option Literal}
    (h : (declaration type name value).Valid t.Declares) :
    ∃ t', execDeclaration t type name value = .ok t' ∧ ∀ n k, t'.Declares n k ↔
      t.Declares n k ∨ (declaration type name value).declares n k := by
  obtain ⟨k, hk, hkind, hvalue⟩ := h
  obtain ⟨v, hvk, hexec⟩ : ∃ v : Value, v.kind = k ∧ execDeclaration t type name value =
      (t.declare name.lexeme v type.line).mapError (refusal name) := by
    unfold execDeclaration declaredValue
    simp only [hk]
    cases value with
    | none => exact ⟨Value.zero k, kind_zero k, rfl⟩
    | some l =>
        obtain ⟨v, hv, hvk⟩ := literalValue_of_isSome (hvalue l rfl)
        refine ⟨v, hvk, ?_⟩
        simp only [hv]
        rfl
  -- the table refuses a name again only if its kind changes
  have hsame : ∀ y, t.symbol? name.lexeme = some y → y.value.kind = v.kind := by
    intro y hy
    rw [hvk]
    exact hkind _ ⟨y, hy, rfl⟩
  obtain ⟨t', ht', hfind⟩ := Table.declare_of_kind type.line hsame
  refine ⟨t', ?_, ?_⟩
  · rw [hexec]
    exact Except.mapError_eq_ok_iff.2 ht'
  · intro n k'
    simp only [Table.Declares, declares, hfind, hk, Option.some.injEq]
    by_cases hn : n = name.lexeme
    · subst hn
      simp only [if_pos, Option.some.injEq, exists_eq_left', hvk, true_and]
      constructor
      · exact .inr
      · rintro (⟨y, hy, hyk⟩ | rfl)
        · rw [← hyk, hsame y hy, hvk]
        · rfl
    · simp [hn, Ne.symm hn]

/-- The value that a valid right side stands for. -/
theorem assignedValue_of_valid {t : Table} (name : Token) {k : Kind} {e : Expr}
    (h : SourceValid t.Declares k e) : ∃ v, assignedValue t name k e = .ok v ∧ v.kind = k := by
  cases e with
  | ident source =>
      obtain ⟨v, hv, hk⟩ := Table.Declares.find? h
      refine ⟨v, ?_, hk⟩
      rw [assignedValue, hv]
      exact if_pos hk
  | number l => exact literalValue_of_isSome h
  | unary op e => cases h
  | binary op l r => cases h

/-- A valid assignment is executed and keeps what is declared. -/
theorem execAssignment_of_valid {t : Table} {name : Token} {e : Expr}
    (h : (assignment name e).Valid t.Declares) :
    ∃ t', execAssignment t name e = .ok t' ∧ ∀ n k, t'.Declares n k ↔ t.Declares n k := by
  obtain ⟨k, ⟨y, hy, hk⟩, hsource⟩ := h
  obtain ⟨v, hv, hvk⟩ := assignedValue_of_valid name hsource
  obtain ⟨t', ht', hfind⟩ := Table.update_of_kind hy (hk.trans hvk.symm)
  refine ⟨t', ?_, ?_⟩
  · rw [execAssignment, Table.find?, hy]
    subst hk
    exact Except.bind_eq_ok_iff.2 ⟨v, hv, Except.mapError_eq_ok_iff.2 ht'⟩
  · intro n k'
    simp only [Table.Declares, hfind]
    by_cases hn : n = name.lexeme
    · subst hn
      simp [hy, hk, hvk]
    · simp [hn]

/-- A valid print is executed, or its result is no number. -/
theorem execPrint_of_valid {t : Table} (keyword : Token) {e : Expr} (h : e.Valid t.Declares) :
    (∃ out, execPrint t keyword e = .ok out) ∨
      ∃ d : Diagnostic, execPrint t keyword e = .error d ∧ d.code = .arithmetic := by
  obtain ⟨r, hr⟩ := Expr.eval_of_valid h
  rw [execPrint, hr]
  cases htext : r.toText? with
  | none =>
      refine .inr ⟨⟨.arithmetic, keyword, [divisionByZero]⟩, ?_, rfl⟩
      simp only [bind, Except.bind, htext]
      rfl
  | some s =>
      refine .inl ⟨[utf8 "Result: " ++ s, []], ?_⟩
      simp only [bind, Except.bind, htext]
      rfl

/-- **A valid statement is executed**, and the table then declares what it did before and what the
statement declares; or the statement is a print whose result is no number. -/
theorem exec_of_valid {t : Table} {s : Statement} (h : s.Valid t.Declares) :
    (∃ t' out, s.exec t = .ok (t', out) ∧
      ∀ n k, t'.Declares n k ↔ t.Declares n k ∨ s.declares n k) ∨
    ∃ d : Diagnostic, s.exec t = .error d ∧ d.code = .arithmetic ∧ ∀ n k, ¬ s.declares n k := by
  cases s with
  | declaration type name value =>
      obtain ⟨t', ht', hdeclares⟩ := execDeclaration_of_valid h
      refine .inl ⟨t', [], ?_, hdeclares⟩
      rw [exec, ht']
      rfl
  | assignment name e =>
      obtain ⟨t', ht', hdeclares⟩ := execAssignment_of_valid h
      refine .inl ⟨t', [], ?_, ?_⟩
      · rw [exec, ht']
        rfl
      · simpa [declares] using hdeclares
  | print keyword line body value =>
      obtain ⟨e, rfl, he⟩ := h
      rcases execPrint_of_valid keyword he with ⟨out, hout⟩ | ⟨d, hd, hcode⟩
      · refine .inl ⟨t, out, ?_, ?_⟩
        · rw [exec, hout]
          rfl
        · simp [declares]
      · refine .inr ⟨d, ?_, hcode, by simp [declares]⟩
        rw [exec, hd]
        rfl

end Statement

end LineCalc
