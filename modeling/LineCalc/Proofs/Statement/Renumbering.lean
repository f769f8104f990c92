import LineCalc.Proofs.Statement.OnLine
import LineCalc.Proofs.Table
import LineCalc.Statement.Exec
/-!
# Executing on another line

A statement does the same on another line, on a table with the same bindings.  A complaint differs
in its line, and in the line of the first declaration if it is about a name declared again.

* `Table.Alike` : the tables bind the same names to the same values, in the same order;
* `Table.Alike.declare`, `Table.Alike.update` : such tables take the same values and refuse the
  others alike;
* `Diagnostic.Renumbered` : complaints that differ in numbers of lines only;
* `Statement.exec_renumbered` : executing keeps the tables alike.
-/
namespace LineCalc

/-! ## Tables with the same bindings -/

/-- The errors differ in the line that a redeclaration quotes at most. -/
def TableError.Alike (e e' : TableError) : Prop :=
  e' = e ∨
    ∃ name k line line' k', e = .redeclared name k line k' ∧ e' = .redeclared name k line' k'

namespace Table

/-- The names and their values, in the order of the table. -/
def bindings (t : Table) : List (Bytes × Value) := t.symbols.map fun y => (y.name, y.value)

/-- The tables differ in the lines of the declarations at most. -/
def Alike (t t' : Table) : Prop := t'.bindings = t.bindings

/-- What a name is bound to is found under it. -/
theorem find?_bindings (t : Table) (name : Bytes) :
    (t.bindings.find? (·.1 == name)).map Prod.snd = t.find? name := by
  rw [bindings, List.find?_map, Option.map_map]
  rfl

/-- Setting a value changes the binding of its name. -/
theorem bindings_set (t : Table) (name : Bytes) (v : Value) :
    (t.set name v).bindings = t.bindings.map fun b => if b.1 = name then (b.1, v) else b := by
  rw [bindings, bindings, set, List.map_map, List.map_map]
  refine List.map_congr_left fun y _ => ?_
  rw [Function.comp_apply, Function.comp_apply, Symbol.name_assign, Symbol.assign]
  split
  · rfl
  · rfl

/-- A new variable is bound last. -/
theorem bindings_push (t : Table) (y : Symbol) (h : t.symbol? y.name = none) :
    (t.push y h).bindings = t.bindings ++ [(y.name, y.value)] := by
  rw [bindings, push, List.map_append]
  rfl

variable {t t' : Table}

/-- Tables that are alike find the same. -/
theorem Alike.find? (h : t.Alike t') (name : Bytes) : t'.find? name = t.find? name := by
  rw [← find?_bindings, ← find?_bindings, h]

/-- A name has no variable in either table, or one in each with the same value. -/
theorem Alike.symbol?_cases (h : t.Alike t') (name : Bytes) :
    (t.symbol? name = none ∧ t'.symbol? name = none) ∨
      ∃ y y', t.symbol? name = some y ∧ t'.symbol? name = some y' ∧ y'.value = y.value := by
  have hfind : (t'.symbol? name).map (·.value) = (t.symbol? name).map (·.value) := h.find? name
  cases hy : t.symbol? name with
  | none =>
      rw [hy] at hfind
      exact .inl ⟨rfl, Option.map_eq_none_iff.1 hfind⟩
  | some y =>
      rw [hy] at hfind
      obtain ⟨y', hy', hvalue⟩ := Option.map_eq_some_iff.1 hfind
      exact .inr ⟨y, y', rfl, hy', hvalue⟩

/-- Tables stay alike if a name takes a value. -/
theorem Alike.set (h : t.Alike t') (name : Bytes) (v : Value) :
    (t.set name v).Alike (t'.set name v) := by
  rw [Alike, bindings_set, bindings_set, h]

/-- What a declaration does to a name that is there. -/
theorem declare_of_symbol? {name : Bytes} {y : Symbol} (hy : t.symbol? name = some y) (v : Value)
    (line : Int) : t.declare name v line =
      if y.value.kind = v.kind then .ok (t.set name v)
      else .error (.redeclared name y.value.kind y.line v.kind) := by
  unfold declare
  split
  · next z hz =>
      obtain rfl : z = y := Option.some.inj (hz.symm.trans hy)
      rfl
  · next hnone => exact absurd (hnone.symm.trans hy) (by simp)

/-- What it does to a new one. -/
theorem declare_of_symbol?_eq_none {name : Bytes} (hnone : t.symbol? name = none) (v : Value)
    (line : Int) : t.declare name v line = .ok (t.push ⟨name, v, line⟩ hnone) := by
  unfold declare
  split
  · next z hz => exact absurd (hz.symm.trans hnone) (by simp)
  · rfl

/-- Tables that are alike take the same declarations, on whatever lines, and stay alike. -/
theorem Alike.declare (h : t.Alike t') (name : Bytes) (v : Value) (line line' : Int) :
    Except.Matches TableError.Alike Alike (t.declare name v line) (t'.declare name v line') := by
  rcases h.symbol?_cases name with ⟨hnone, hnone'⟩ | ⟨y, y', hy, hy', hvalue⟩
  · rw [declare_of_symbol?_eq_none hnone, declare_of_symbol?_eq_none hnone']
    refine .ok ?_
    rw [Alike, bindings_push, bindings_push, h]
  · rw [declare_of_symbol? hy, declare_of_symbol? hy', hvalue]
    split
    · exact .ok (h.set name v)
    · exact .error (.inr ⟨name, _, _, _, _, rfl, rfl⟩)

/-- They take the same new values. -/
theorem Alike.update (h : t.Alike t') (name : Bytes) (v : Value) :
    Except.Matches TableError.Alike Alike (t.update name v) (t'.update name v) := by
  unfold Table.update
  rcases h.symbol?_cases name with ⟨hnone, hnone'⟩ | ⟨y, y', hy, hy', hvalue⟩
  · rw [hnone, hnone']
    exact .error (.inl rfl)
  · simp only [hy, hy', hvalue]
    split
    · exact .ok (h.set name v)
    · exact .error (.inl rfl)

end Table

/-! ## Complaints -/

/-- The complaints are the same, one about the line `m`, the other about the line `n`.  A complaint
about a name declared again also quotes the line of its first declaration. -/
structure Diagnostic.Renumbered (m n : Int) (d d' : Diagnostic) : Prop where
  line : d.token.line = m
  token : d'.token = d.token.onLine n
  code : d'.code = d.code
  args : d'.args = d.args ∨
    ∃ e e' : TableError, e.Alike e' ∧ d.args = [e.detail] ∧ d'.args = [e'.detail]

/-- Complaints about the same token with the same texts. -/
theorem Diagnostic.renumbered (m n : Int) (code : Code) (token : Token) (args : List Bytes) :
    Renumbered m n ⟨code, token.onLine m, args⟩ ⟨code, token.onLine n, args⟩ :=
  ⟨rfl, rfl, rfl, .inl rfl⟩

/-! ## Expressions -/

namespace Expr

variable {t t' : Table}

/-- A literal is worth the same on every line. -/
theorem evalLiteral_renumbered (m n : Int) (l : Literal) :
    Except.Matches (Diagnostic.Renumbered m n) (· = ·)
      (evalLiteral (l.onLine m)) (evalLiteral (l.onLine n)) := by
  have hfractional : ∀ n, (l.onLine n).isFractional = l.isFractional := by
    intro n
    rw [Literal.isFractional, Literal.isFractional, Literal.text_onLine]
  simp only [evalLiteral, hfractional, Literal.text_onLine, Literal.token_onLine]
  split
  · exact .ok rfl
  · exact .error (Diagnostic.renumbered m n _ _ _)

/-- So is a name in tables that are alike. -/
theorem evalName_renumbered (h : t.Alike t') (m n : Int) (name : Token) :
    Except.Matches (Diagnostic.Renumbered m n) (· = ·)
      (evalName t (name.onLine m)) (evalName t' (name.onLine n)) := by
  have hlexeme : ∀ n, (name.onLine n).lexeme = name.lexeme := fun n => rfl
  simp only [evalName, hlexeme, h.find? name.lexeme]
  split
  · exact .ok rfl
  · exact .error (Diagnostic.renumbered m n _ _ _)

/-- So is an expression. -/
theorem eval_renumbered (h : t.Alike t') (m n : Int) (e : Expr) :
    Except.Matches (Diagnostic.Renumbered m n) (· = ·)
      ((e.onLine m).eval t) ((e.onLine n).eval t') := by
  induction e with
  | number l => exact evalLiteral_renumbered m n l
  | ident name => exact evalName_renumbered h m n name
  | unary op e ih =>
      rw [onLine, onLine, eval, eval]
      refine ih.bind ?_
      rintro x _ rfl
      exact .ok rfl
  | binary op l r ihl ihr =>
      rw [onLine, onLine, eval, eval]
      refine ihl.bind ?_
      rintro x _ rfl
      refine ihr.bind ?_
      rintro y _ rfl
      exact .ok rfl

end Expr

/-! ## Statements -/

namespace Statement

variable {t t' : Table}

/-- The refusals of the table are complained about alike. -/
theorem refusal_renumbered (m n : Int) (name : Token) {e e' : TableError} (h : e.Alike e') :
    Diagnostic.Renumbered m n (refusal (name.onLine m) e) (refusal (name.onLine n) e') := by
  rcases h with rfl | ⟨x, k, line, line', k', rfl, rfl⟩
  · cases e' with
    | undeclared x => exact Diagnostic.renumbered m n _ _ _
    | redeclared x k line k' => exact Diagnostic.renumbered m n _ _ _
    | misassigned x k k' => exact Diagnostic.renumbered m n _ _ _
  · exact ⟨rfl, rfl, rfl, .inr ⟨_, _, .inr ⟨x, k, line, line', k', rfl, rfl⟩, rfl, rfl⟩⟩

/-- A literal writes the same value on every line. -/
theorem literalValue_renumbered (m n : Int) (k : Kind) (l : Literal) :
    Except.Matches (Diagnostic.Renumbered m n) (· = ·)
      (literalValue k (l.onLine m)) (literalValue k (l.onLine n)) := by
  simp only [literalValue, Literal.text_onLine, Literal.token_onLine]
  split
  · exact .ok rfl
  · exact .error (Diagnostic.renumbered m n _ _ _)

/-- The value that is declared is the same. -/
theorem declaredValue_renumbered (m n : Int) (type : Token) (value : Option Literal) :
    Except.Matches (Diagnostic.Renumbered m n) (· = ·)
      (declaredValue (type.onLine m) (value.map (Literal.onLine m)))
      (declaredValue (type.onLine n) (value.map (Literal.onLine n))) := by
  have hlexeme : ∀ n, (type.onLine n).lexeme = type.lexeme := fun n => rfl
  simp only [declaredValue, hlexeme]
  cases Kind.ofText? type.lexeme with
  | none => exact .error (Diagnostic.renumbered m n _ _ _)
  | some k =>
      cases value with
      | none => exact .ok rfl
      | some l => exact literalValue_renumbered m n k l

/-- A declaration leaves tables alike. -/
theorem execDeclaration_renumbered (h : t.Alike t') (m n : Int) (type name : Token)
    (value : Option Literal) :
    Except.Matches (Diagnostic.Renumbered m n) Table.Alike
      (execDeclaration t (type.onLine m) (name.onLine m) (value.map (Literal.onLine m)))
      (execDeclaration t' (type.onLine n) (name.onLine n) (value.map (Literal.onLine n))) := by
  refine (declaredValue_renumbered m n type value).bind ?_
  rintro v _ rfl
  exact (h.declare name.lexeme v m n).mapError fun _ _ => refusal_renumbered m n name

/-- The value that is assigned is the same. -/
theorem assignedValue_renumbered (h : t.Alike t') (m n : Int) (name : Token) (k : Kind)
    (value : Expr) :
    Except.Matches (Diagnostic.Renumbered m n) (· = ·)
      (assignedValue t (name.onLine m) k (value.onLine m))
      (assignedValue t' (name.onLine n) k (value.onLine n)) := by
  cases value with
  | number l => exact literalValue_renumbered m n k l
  | ident source =>
      have hlexeme : ∀ n, (source.onLine n).lexeme = source.lexeme := fun n => rfl
      simp only [Expr.onLine, assignedValue, hlexeme, h.find? source.lexeme]
      split
      · exact .error (Diagnostic.renumbered m n _ _ _)
      · split
        · exact .ok rfl
        · exact .error (Diagnostic.renumbered m n _ _ _)
  | unary op e => exact .error (Diagnostic.renumbered m n _ _ _)
  | binary op l r => exact .error (Diagnostic.renumbered m n _ _ _)

/-- An assignment leaves tables alike. -/
theorem execAssignment_renumbered (h : t.Alike t') (m n : Int) (name : Token) (value : Expr) :
    Except.Matches (Diagnostic.Renumbered m n) Table.Alike
      (execAssignment t (name.onLine m) (value.onLine m))
      (execAssignment t' (name.onLine n) (value.onLine n)) := by
  have hlexeme : ∀ n, (name.onLine n).lexeme = name.lexeme := fun n => rfl
  simp only [execAssignment, hlexeme, h.find? name.lexeme]
  cases t.find? name.lexeme with
  | none => exact .error (Diagnostic.renumbered m n _ _ _)
  | some current =>
      refine (assignedValue_renumbered h m n name current.kind value).bind ?_
      rintro v _ rfl
      exact (h.update name.lexeme v).mapError fun _ _ => refusal_renumbered m n name

/-- A print writes the same. -/
theorem execPrint_renumbered (h : t.Alike t') (m n : Int) (keyword : Token) (value : Expr) :
    Except.Matches (Diagnostic.Renumbered m n) (· = ·)
      (execPrint t (keyword.onLine m) (value.onLine m))
      (execPrint t' (keyword.onLine n) (value.onLine n)) := by
  refine (Expr.eval_renumbered h m n value).bind ?_
  rintro r _ rfl
  cases r.toText? with
  | none => exact .error (Diagnostic.renumbered m n _ _ _)
  | some s => exact .ok rfl

/-- **A statement does the same on another line**: on tables that are alike, it leaves such tables
and writes the same, or is complained about alike. -/
theorem exec_renumbered (h : t.Alike t') (m n : Int) (s : Statement) :
    Except.Matches (Diagnostic.Renumbered m n) (fun r r' => r.1.Alike r'.1 ∧ r'.2 = r.2)
      ((s.onLine m).exec t) ((s.onLine n).exec t') := by
  cases s with
  | declaration type name value =>
      exact (execDeclaration_renumbered h m n type name value).map fun _ _ h => ⟨h, rfl⟩
  | assignment name value =>
      exact (execAssignment_renumbered h m n name value).map fun _ _ h => ⟨h, rfl⟩
  | print keyword line body value =>
      cases value with
      | none => exact .ok ⟨h, rfl⟩
      | some e => exact (execPrint_renumbered h m n keyword e).map fun _ _ hout => ⟨h, hout.symm⟩

end Statement

end LineCalc
