import LineCalc.Proofs.Double.Finite
import LineCalc.Proofs.Expr.Grammar
import LineCalc.Expr.Eval
/-!
# Dividing by zero

The operations of an expression over integers, and which of them spoil its value.  Nothing is
checked while an expression is computed, so what happens to an infinity further up decides; in a
tree that groups as its operators ask it is never divided by, and survives.

* `Expr.IsIntegral` : all operands are integers that there are;
* `Expr.DividesByZero`, `Expr.Overflows` : an operation divides by zero, or leaves the range of
  doubles;
* `Expr.Shaped.isFinite_iff` : the value is finite just if no operation does either;
* `Expr.Shaped.not_overflows` : at most sixteen operands never leave the range.
-/
namespace LineCalc

open Double

namespace Expr

/-! ## Expressions over integers -/

/-- Every operand is an integer: a literal without a point that 64 bits hold, or a variable of kind
int that is there. -/
def IsIntegral (t : Table) : Expr → Prop
  | number l => l.isFractional = false ∧ ∃ i, readInt? l.text = some i
  | ident name => ∃ i, t.find? name.lexeme = some (.int i)
  | unary _ e => e.IsIntegral t
  | binary _ l r => l.IsIntegral t ∧ r.IsIntegral t

variable {t : Table}

/-- Whether an expression is over integers can be computed. -/
instance decidableIsIntegral (t : Table) : (e : Expr) → Decidable (e.IsIntegral t)
  | number l =>
      decidable_of_iff (l.isFractional = false ∧ (readInt? l.text).isSome)
        (and_congr_right fun _ => Option.isSome_iff_exists)
  | ident name =>
      match h : t.find? name.lexeme with
      | some (.int i) => .isTrue ⟨i, h⟩
      | some (.double _) => .isFalse fun ⟨_, hi⟩ => by simp [h] at hi
      | none => .isFalse fun ⟨_, hi⟩ => by simp [h] at hi
  | unary _ e => decidableIsIntegral t e
  | binary _ l r =>
      have := decidableIsIntegral t l
      have := decidableIsIntegral t r
      inferInstanceAs (Decidable (l.IsIntegral t ∧ r.IsIntegral t))

/-- A literal of an integer has its value. -/
theorem eval_number {l : Literal} {i : Int64} (hpoint : l.isFractional = false)
    (hi : readInt? l.text = some i) : (number l).eval t = .ok ⟨ofInt i.toInt, true⟩ := by
  simp only [eval, evalLiteral, hpoint, Bool.false_eq_true, if_false, Value.read?, hi,
    Option.map_some]
  rfl

/-- A variable of kind int has its value. -/
theorem eval_ident {name : Token} {i : Int64} (hi : t.find? name.lexeme = some (.int i)) :
    (ident name).eval t = .ok ⟨ofInt i.toInt, true⟩ := by
  simp only [eval, evalName, hi]
  rfl

/-- A sign is applied to the value of its operand. -/
theorem eval_unary (op : Token) {e : Expr} {x : Double} (h : e.eval t = .ok ⟨x, true⟩) :
    (unary op e).eval t = .ok ⟨applyUnary op.kind x, true⟩ := by
  rw [eval, h]
  rfl

/-- An operator is applied to the values of its operands. -/
theorem eval_binary (op : Token) {l r : Expr} {x y : Double} (hl : l.eval t = .ok ⟨x, true⟩)
    (hr : r.eval t = .ok ⟨y, true⟩) :
    (binary op l r).eval t = .ok ⟨applyBinary op.kind x y, true⟩ := by
  rw [eval, hl, hr]
  rfl

/-- **An expression over integers has a value**, and it is shown as an integer. -/
theorem IsIntegral.exists_eval {e : Expr} (h : e.IsIntegral t) :
    ∃ x, e.eval t = .ok ⟨x, true⟩ := by
  induction e with
  | number l =>
      obtain ⟨hpoint, i, hi⟩ := h
      exact ⟨_, eval_number hpoint hi⟩
  | ident name =>
      obtain ⟨i, hi⟩ := h
      exact ⟨_, eval_ident hi⟩
  | unary op e ih =>
      obtain ⟨x, hx⟩ := ih h
      exact ⟨_, eval_unary op hx⟩
  | binary op l r ihl ihr =>
      obtain ⟨x, hx⟩ := ihl h.1
      obtain ⟨y, hy⟩ := ihr h.2
      exact ⟨_, eval_binary op hx hy⟩

/-- An expression has one value. -/
theorem value_unique {e : Expr} {x y : Double} {b c : Bool} (hx : e.eval t = .ok ⟨x, b⟩)
    (hy : e.eval t = .ok ⟨y, c⟩) : x = y := by
  rw [hx] at hy
  exact congrArg Result.value (Except.ok.inj hy)

/-- An operand that is no operation has the size of an integer. -/
theorem Shaped.intSized {e : Expr} (hs : e.Shaped) (hatom : e.isBinary = false)
    (hi : e.IsIntegral t) {x : Double} (hx : e.eval t = .ok ⟨x, true⟩) : IntSized x := by
  induction e generalizing x with
  | number l =>
      obtain ⟨hpoint, i, hread⟩ := hi
      rw [value_unique hx (eval_number hpoint hread)]
      exact intSized_ofInt i
  | ident name =>
      obtain ⟨i, hfind⟩ := hi
      rw [value_unique hx (eval_ident hfind)]
      exact intSized_ofInt i
  | unary op e ih =>
      obtain ⟨hsign, hinner, hs⟩ := hs
      obtain ⟨y, hy⟩ := IsIntegral.exists_eval (e := e) hi
      have hsize := ih hs hinner hi hy
      rw [value_unique hx (eval_unary op hy)]
      rcases hsign with hsign | hsign
      · rw [hsign]
        exact hsize
      · rw [hsign]
        exact hsize.neg
  | binary op l r => cases hatom

/-! ## Operations -/

/-- A binary operator with its operands. -/
structure Operation where
  op : Token
  left : Expr
  right : Expr

/-- The operations of an expression, from left to right. -/
def operations : Expr → List Operation
  | number _ => []
  | ident _ => []
  | unary _ e => e.operations
  | binary op l r => l.operations ++ ⟨op, l, r⟩ :: r.operations

namespace Operation

/-- A quotient whose divisor is zero, of either sign. -/
def DividesByZero (t : Table) (o : Operation) : Prop :=
  o.op.kind = .slash ∧ ∃ y, o.right.eval t = .ok y ∧ y.value.IsZero

/-- Whether an operation divides by zero can be computed. -/
instance (t : Table) (o : Operation) : Decidable (o.DividesByZero t) :=
  match h : o.right.eval t with
  | .ok y => decidable_of_iff (o.op.kind = .slash ∧ y.value.IsZero) (by simp [DividesByZero, h])
  | .error _ => .isFalse (by simp [DividesByZero, h])

/-- A sum, a difference or a product of finite operands that is not finite. -/
def Overflows (t : Table) (o : Operation) : Prop :=
  o.op.kind ≠ .slash ∧ ∃ x y, o.left.eval t = .ok x ∧ o.right.eval t = .ok y ∧
    x.value.isFinite ∧ y.value.isFinite ∧
    (applyBinary o.op.kind x.value y.value).isFinite = false

end Operation

/-- Some quotient of the expression has zero as its divisor. -/
def DividesByZero (t : Table) (e : Expr) : Prop := ∃ o ∈ e.operations, o.DividesByZero t

/-- Whether an expression divides by zero can be computed. -/
instance (t : Table) (e : Expr) : Decidable (e.DividesByZero t) :=
  inferInstanceAs (Decidable (∃ o ∈ e.operations, o.DividesByZero t))

/-- Some sum, difference or product of the expression leaves the range of doubles. -/
def Overflows (t : Table) (e : Expr) : Prop := ∃ o ∈ e.operations, o.Overflows t

/-- An operand that is no operation has none inside. -/
theorem Shaped.operations_eq_nil {e : Expr} (hs : e.Shaped) (hatom : e.isBinary = false) :
    e.operations = [] := by
  induction e with
  | number l => rfl
  | ident name => rfl
  | unary op e ih => exact ih hs.2.2 hs.2.1
  | binary op l r => cases hatom

/-- Division by zero in an operation is that of the root, or of an operand. -/
theorem dividesByZero_binary_iff {op : Token} {l r : Expr} : (binary op l r).DividesByZero t ↔
    l.DividesByZero t ∨ (Operation.mk op l r).DividesByZero t ∨ r.DividesByZero t := by
  simp only [DividesByZero, operations, List.mem_append, List.mem_cons, or_and_right, exists_or,
    exists_eq_left]

/-- Overflow in an operation is that of the root, or of an operand. -/
theorem overflows_binary_iff {op : Token} {l r : Expr} : (binary op l r).Overflows t ↔
    l.Overflows t ∨ (Operation.mk op l r).Overflows t ∨ r.Overflows t := by
  simp only [Overflows, operations, List.mem_append, List.mem_cons, or_and_right, exists_or,
    exists_eq_left]

/-! ## What spoils a value -/

/-- Sums, differences and products are finite just if their operands are and they stay in range. -/
theorem isFinite_applyBinary_iff {op : Token} {l r : Expr} {x y : Double}
    (hop : op.kind = .plus ∨ op.kind = .minus ∨ op.kind = .times)
    (hx : l.eval t = .ok ⟨x, true⟩) (hy : r.eval t = .ok ⟨y, true⟩) :
    (applyBinary op.kind x y).isFinite ↔
      x.isFinite ∧ y.isFinite ∧ ¬ (Operation.mk op l r).Overflows t := by
  have hslash : op.kind ≠ .slash := by
    rcases hop with h | h | h <;> simp [h]
  constructor
  · intro h
    have hoperands : x.isFinite ∧ y.isFinite := by
      rcases hop with hk | hk | hk <;> rw [hk] at h
      · exact isFinite_of_add h
      · exact isFinite_of_sub h
      · exact isFinite_of_mul h
    refine ⟨hoperands.1, hoperands.2, ?_⟩
    rintro ⟨-, x', y', hx', hy', -, -, hspoiled⟩
    rw [value_unique hx' hx, value_unique hy' hy, h] at hspoiled
    cases hspoiled
  · rintro ⟨hxf, hyf, hrange⟩
    by_contra hspoiled
    exact hrange ⟨hslash, _, _, hx, hy, hxf, hyf, Bool.eq_false_iff.2 hspoiled⟩

/-- A quotient by an integer is finite just if the dividend is and the divisor is not zero. -/
theorem isFinite_div_iff {op : Token} {l r : Expr} {x y : Double} (hop : op.kind = .slash)
    (hsize : IntSized y) (hy : r.eval t = .ok ⟨y, true⟩) :
    (x / y).isFinite ↔ x.isFinite ∧ ¬ (Operation.mk op l r).DividesByZero t := by
  constructor
  · intro h
    refine ⟨isFinite_of_div h, ?_⟩
    rintro ⟨-, y', hy', hzero⟩
    rw [value_unique hy' hy] at hzero
    rw [isFinite_div_of_isZero x hzero] at h
    cases h
  · rintro ⟨hxf, hdivides⟩
    rcases hsize.isZero_or_atLeastOne with hzero | hone
    · exact absurd ⟨hop, _, hy, hzero⟩ hdivides
    · exact isFinite_div hxf hone

/-- No operation stands behind a slash. -/
theorem Shaped.isBinary_right {op : Token} {l r : Expr} (hs : (binary op l r).Shaped)
    (hop : op.kind = .slash) : r.isBinary = false := by
  rcases hs.1 with ⟨hk | hk, -⟩ | ⟨-, -, hatom⟩
  · rw [hk] at hop
    cases hop
  · rw [hk] at hop
    cases hop
  · exact hatom

/-- The result of an operation is finite just if its operands are and it does neither. -/
theorem Shaped.isFinite_binary_iff {op : Token} {l r : Expr} (hs : (binary op l r).Shaped)
    (hi : (binary op l r).IsIntegral t) {x y : Double} (hx : l.eval t = .ok ⟨x, true⟩)
    (hy : r.eval t = .ok ⟨y, true⟩) :
    (applyBinary op.kind x y).isFinite ↔ x.isFinite ∧ y.isFinite ∧
      ¬ (Operation.mk op l r).DividesByZero t ∧ ¬ (Operation.mk op l r).Overflows t := by
  by_cases hslash : op.kind = .slash
  · -- the divisor is no operation, so it is an integer and never an infinity
    have hsize := hs.2.2.intSized (hs.isBinary_right hslash) hi.2 hy
    have hfinite := hsize.atMost.isFinite
    have hrange : ¬ (Operation.mk op l r).Overflows t := fun h => h.1 hslash
    have hdiv : applyBinary op.kind x y = x / y := by
      rw [hslash]
      rfl
    rw [hdiv, isFinite_div_iff (l := l) hslash hsize hy]
    simp [hfinite, hrange]
  · have hop : op.kind = .plus ∨ op.kind = .minus ∨ op.kind = .times := by
      rcases hs.1 with ⟨hk | hk, -⟩ | ⟨hk | hk, -⟩
      · exact .inl hk
      · exact .inr (.inl hk)
      · exact .inr (.inr hk)
      · exact absurd hk hslash
    have hdivides : ¬ (Operation.mk op l r).DividesByZero t := fun h => hslash h.1
    rw [isFinite_applyBinary_iff hop hx hy]
    simp [hdivides]

/-- The value of an operand that is no operation is finite. -/
theorem Shaped.isFinite_iff_of_isBinary_eq_false {e : Expr} (hs : e.Shaped)
    (hatom : e.isBinary = false) (hi : e.IsIntegral t) {x : Double}
    (hx : e.eval t = .ok ⟨x, true⟩) :
    x.isFinite ↔ ¬ e.DividesByZero t ∧ ¬ e.Overflows t := by
  have hnone := hs.operations_eq_nil hatom
  have hfinite := (hs.intSized hatom hi hx).atMost.isFinite
  simp [DividesByZero, Overflows, hnone, hfinite]

/-- **What spoils a value.**  The value of an expression over integers, grouped as its operators
ask, is finite just if no operation divides by zero and none leaves the range of doubles. -/
theorem Shaped.isFinite_iff {e : Expr} (hs : e.Shaped) (hi : e.IsIntegral t) {x : Double}
    (hx : e.eval t = .ok ⟨x, true⟩) :
    x.isFinite ↔ ¬ e.DividesByZero t ∧ ¬ e.Overflows t := by
  induction e generalizing x with
  | number l => exact hs.isFinite_iff_of_isBinary_eq_false rfl hi hx
  | ident name => exact hs.isFinite_iff_of_isBinary_eq_false rfl hi hx
  | unary op e => exact hs.isFinite_iff_of_isBinary_eq_false rfl hi hx
  | binary op l r ihl ihr =>
      obtain ⟨y, hy⟩ := hi.1.exists_eval
      obtain ⟨z, hz⟩ := hi.2.exists_eval
      have hl := ihl hs.2.1 hi.1 hy
      have hr := ihr hs.2.2 hi.2 hz
      rw [value_unique hx (eval_binary op hy hz), hs.isFinite_binary_iff hi hy hz, hl, hr,
        dividesByZero_binary_iff, overflows_binary_iff]
      simp only [not_or]
      constructor
      · rintro ⟨⟨hld, hlo⟩, ⟨hrd, hro⟩, hd, ho⟩
        exact ⟨⟨hld, hd, hrd⟩, hlo, ho, hro⟩
      · rintro ⟨⟨hld, hd, hrd⟩, hlo, ho, hro⟩
        exact ⟨⟨hld, hlo⟩, ⟨hrd, hro⟩, hd, ho⟩

/-! ## How far the range reaches -/

/-- There is an operand. -/
theorem operands_length_pos (e : Expr) : 0 < e.operands.length := by
  induction e with
  | number l => exact Nat.one_pos
  | ident name => exact Nat.one_pos
  | unary op e => exact Nat.one_pos
  | binary op l r ihl => exact Nat.lt_of_lt_of_le ihl (by simp [operands])

/-- The exponents of the bounds of two operands add up, unless there is a small divisor. -/
theorem atMost_applyBinary {op : TokenKind} {j k : Nat} {x y : Double} (hx : AtMost j x)
    (hy : AtMost k y) (hj : 0 < j) (hk : 0 < k) (hjk : j + k ≤ 1023)
    (hop : op.isOperator) (hslash : op = .slash → y.AtLeastOne) :
    AtMost (j + k) (applyBinary op x y) := by
  have hterms : AtMost (j + k - 1) x ∧ AtMost (j + k - 1) y :=
    ⟨hx.mono (by omega), hy.mono (by omega)⟩
  have hsucc : j + k - 1 + 1 = j + k := by omega
  cases op with
  | plus => exact hsucc ▸ hterms.1.add hterms.2 (by omega)
  | minus => exact hsucc ▸ hterms.1.sub hterms.2 (by omega)
  | times => exact hx.mul hy hjk
  | slash => exact (hx.div (hslash rfl)).mono (Nat.le_add_right j k)
  | _ => cases hop

/-- **Every operand widens the range by no more than its own**, as long as nothing is divided by
zero. -/
theorem Shaped.atMost {e : Expr} (hs : e.Shaped) (hi : e.IsIntegral t)
    (hdivides : ¬ e.DividesByZero t) (hlength : e.operands.length ≤ 16) {x : Double}
    (hx : e.eval t = .ok ⟨x, true⟩) : AtMost (63 * e.operands.length) x := by
  induction e generalizing x with
  | number l => exact (hs.intSized rfl hi hx).atMost
  | ident name => exact (hs.intSized rfl hi hx).atMost
  | unary op e => exact (hs.intSized rfl hi hx).atMost
  | binary op l r ihl ihr =>
      obtain ⟨y, hy⟩ := hi.1.exists_eval
      obtain ⟨z, hz⟩ := hi.2.exists_eval
      rw [dividesByZero_binary_iff, not_or, not_or] at hdivides
      obtain ⟨hdl, hdroot, hdr⟩ := hdivides
      have hsum : (binary op l r).operands.length = l.operands.length + r.operands.length :=
        List.length_append
      rw [hsum] at hlength ⊢
      have hposl := operands_length_pos l
      have hposr := operands_length_pos r
      have hl := ihl hs.2.1 hi.1 hdl (by omega) hy
      have hr := ihr hs.2.2 hi.2 hdr (by omega) hz
      have hop := (precedence_pos_iff op.kind).1 ((shaped_binary_iff op l r).1 hs).1
      -- the bounds of the operands add up, just as their numbers of operands do
      rw [value_unique hx (eval_binary op hy hz), Nat.mul_add]
      apply atMost_applyBinary hl hr (by omega) (by omega) (by omega) hop
      intro hslash
      have hsize := hs.2.2.intSized (hs.isBinary_right hslash) hi.2 hz
      rcases hsize.isZero_or_atLeastOne with hzero | hone
      · exact absurd ⟨hslash, _, hz, hzero⟩ hdroot
      · exact hone

/-- **At most sixteen operands stay in range**, unless something is divided by zero. -/
theorem Shaped.not_overflows {e : Expr} (hs : e.Shaped) (hi : e.IsIntegral t)
    (hdivides : ¬ e.DividesByZero t) (hlength : e.operands.length ≤ 16) : ¬ e.Overflows t := by
  obtain ⟨x, hx⟩ := hi.exists_eval
  have hfinite := (hs.atMost hi hdivides hlength hx).isFinite
  exact ((hs.isFinite_iff hi hx).1 hfinite).2

end Expr

end LineCalc
