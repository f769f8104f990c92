import LineCalc.Expr.Eval
import LineCalc.Proofs.Except
/-!
# The leaves of an expression

Whether an expression has a value, what is complained about if it has none, and whether it counts as
an integer: its leaves tell, read from left to right, and no operator and no grouping matters.

* `Expr.leaves` : the literals and the names of an expression;
* `Leaf.Resolves`, `Leaf.complaint`, `Leaf.IsInteger` : what a leaf does by itself;
* `Expr.eval_eq_error_iff` : the complaint is that of the first leaf without a value;
* `Expr.isInteger_of_eval` : the value is an integer if all leaves are;
* `Expr.eval_congr` : a table matters at the names of the expression only.
-/
namespace LineCalc

/-- A leaf of an expression: a literal, or the name of a variable. -/
inductive Leaf where
  | number (literal : Literal)
  | name (token : Token)
  deriving DecidableEq

namespace Leaf

/-- The tokens of a leaf. -/
def tokens : Leaf → List Token
  | number l => l.sign.toList ++ [l.number]
  | name x => [x]

/-- The leaf has a value: a literal with a point is read as a double and one without as an integer
of 64 bits, and a variable is in the table. -/
def Resolves (t : Table) : Leaf → Prop
  | number l => if 0x2e ∈ l.text then ∃ d, readDouble? l.text = some d
      else ∃ i, readInt? l.text = some i
  | name x => ∃ v, t.find? x.lexeme = some v

/-- The complaint about a leaf without a value. -/
def complaint : Leaf → Diagnostic
  | number l => ⟨.literal, l.token, [(if 0x2e ∈ l.text then Kind.double else .int).text, l.text]⟩
  | name x => ⟨.undeclared, x, [x.lexeme]⟩

/-- The leaf counts as an integer: it has no point, or it is no variable of kind double. -/
def IsInteger (t : Table) : Leaf → Prop
  | number l => 0x2e ∉ l.text
  | name x => ∀ v, t.find? x.lexeme = some v → v.kind ≠ .double

/-- The value of a leaf. -/
def eval (t : Table) : Leaf → Except Diagnostic Result
  | number l => Expr.evalLiteral l
  | name x => Expr.evalName t x

/-- The complaint about a leaf, if it has no value. -/
def fault? (t : Table) (leaf : Leaf) : Option Diagnostic :=
  match leaf.eval t with
  | .ok _ => none
  | .error d => some d

end Leaf

/-- A literal is fractional if a point is in it. -/
theorem Literal.isFractional_iff (l : Literal) : l.isFractional ↔ 0x2e ∈ l.text := by
  simp [isFractional]

namespace Leaf

variable {t : Table} {leaf : Leaf} {d : Diagnostic}

/-- A literal with a point is read as a double. -/
theorem eval_number_of_mem {l : Literal} (h : 0x2e ∈ l.text) : (number l).eval t =
    match readDouble? l.text with
    | some x => .ok ⟨x, false⟩
    | none => .error (number l).complaint := by
  simp only [eval, Expr.evalLiteral, l.isFractional_iff.2 h, complaint, if_pos h, if_true,
    Value.read?]
  cases readDouble? l.text with
  | none => rfl
  | some x => rfl

/-- A literal without a point is read as an integer. -/
theorem eval_number_of_notMem {l : Literal} (h : 0x2e ∉ l.text) : (number l).eval t =
    match readInt? l.text with
    | some i => .ok ⟨.ofInt i.toInt, true⟩
    | none => .error (number l).complaint := by
  have hwhole : l.isFractional = false := Bool.eq_false_iff.2 (mt l.isFractional_iff.1 h)
  simp only [eval, Expr.evalLiteral, hwhole, complaint, if_neg h, Bool.false_eq_true, if_false,
    Value.read?]
  cases readInt? l.text with
  | none => rfl
  | some i => rfl

/-- A leaf fails just if it does not resolve, and with its own complaint. -/
theorem eval_eq_error_iff : leaf.eval t = .error d ↔ ¬ leaf.Resolves t ∧ d = leaf.complaint := by
  cases leaf with
  | number l =>
      by_cases h : 0x2e ∈ l.text
      · rw [eval_number_of_mem h, Resolves, if_pos h]
        cases readDouble? l.text with
        | none => simp [eq_comm]
        | some x => simp
      · rw [eval_number_of_notMem h, Resolves, if_neg h]
        cases readInt? l.text with
        | none => simp [eq_comm]
        | some i => simp
  | name x =>
      simp only [eval, Expr.evalName, Resolves, complaint]
      cases t.find? x.lexeme with
      | none => simp [eq_comm]
      | some v => simp

/-- A leaf is complained about just if it fails. -/
theorem fault?_eq_some_iff : leaf.fault? t = some d ↔ leaf.eval t = .error d := by
  rw [fault?]
  cases leaf.eval t with
  | error d' => simp
  | ok r => simp

/-- A leaf is not complained about just if it resolves. -/
theorem fault?_eq_none_iff : leaf.fault? t = none ↔ leaf.Resolves t := by
  rw [Option.eq_none_iff_forall_ne_some]
  simp only [ne_eq, fault?_eq_some_iff, eval_eq_error_iff, not_and]
  exact ⟨fun h => not_not.1 fun hne => h _ hne rfl, fun h _ hne => absurd h hne⟩

/-- The value of a leaf is an integer just if the leaf counts as one. -/
theorem isInteger_of_eval {r : Result} (h : leaf.eval t = .ok r) :
    r.isInteger ↔ leaf.IsInteger t := by
  cases leaf with
  | number l =>
      by_cases hpoint : 0x2e ∈ l.text
      · rw [eval_number_of_mem hpoint] at h
        split at h
        · rw [← Except.ok.inj h]
          simp [IsInteger, hpoint]
        · cases h
      · rw [eval_number_of_notMem hpoint] at h
        split at h
        · rw [← Except.ok.inj h]
          simp [IsInteger, hpoint]
        · cases h
  | name x =>
      simp only [eval, Expr.evalName] at h
      split at h
      · next v hv =>
          rw [← Except.ok.inj h]
          cases v with
          | int i => simp [IsInteger, hv, Value.kind]
          | double y => simp [IsInteger, hv, Value.kind]
      · cases h

end Leaf

namespace Expr

variable {t : Table} {e : Expr}

/-- The leaves of an expression, from left to right. -/
def leaves : Expr → List Leaf
  | number l => [.number l]
  | ident x => [.name x]
  | unary _ e => leaves e
  | binary _ l r => leaves l ++ leaves r

/-- The leaves are in the order in which the expression is read. -/
theorem leaves_sublist_tokens (e : Expr) : (e.leaves.flatMap Leaf.tokens).Sublist e.tokens := by
  induction e with
  | number l => simp [leaves, Leaf.tokens, tokens]
  | ident x => simp [leaves, Leaf.tokens, tokens]
  | unary op e ih => exact ih.cons op
  | binary op l r ihl ihr =>
      rw [leaves, List.flatMap_append, tokens]
      exact ihl.append (ihr.cons op)

/-- **The first leaf without a value is complained about.**  An expression fails just if a leaf
does, whatever its operators are. -/
theorem eval_eq_error_iff {d : Diagnostic} :
    e.eval t = .error d ↔ e.leaves.findSome? (Leaf.fault? t) = some d := by
  induction e generalizing d with
  | number l =>
      change (Leaf.number l).eval t = _ ↔ _
      simp [leaves, Leaf.fault?_eq_some_iff]
  | ident x =>
      change (Leaf.name x).eval t = _ ↔ _
      simp [leaves, Leaf.fault?_eq_some_iff]
  | unary op e ih =>
      rw [leaves, ← ih, eval, Except.bind_eq_error_iff]
      simp [pure, Except.pure]
  | binary op l r ihl ihr =>
      rw [leaves, List.findSome?_append, Option.or_eq_some_iff, ← ihr, eval]
      cases hl : l.eval t with
      | error d' => simp [ihl.1 hl, bind, Except.bind]
      | ok x =>
          -- the left operand has a value, so none of its leaves is complained about
          have hnone : l.leaves.findSome? (Leaf.fault? t) = none := by
            rw [Option.eq_none_iff_forall_ne_some]
            intro d' hd'
            rw [ihl.2 hd'] at hl
            cases hl
          rw [hnone, Except.bind_eq_error_iff]
          simp [Except.bind_eq_error_iff, pure, Except.pure]

/-- **A value is an integer just if all leaves are.** -/
theorem isInteger_of_eval {r : Result} (h : e.eval t = .ok r) :
    r.isInteger ↔ ∀ leaf ∈ e.leaves, leaf.IsInteger t := by
  induction e generalizing r with
  | number l =>
      have hleaf : (Leaf.number l).eval t = .ok r := h
      simpa [leaves] using Leaf.isInteger_of_eval hleaf
  | ident x =>
      have hleaf : (Leaf.name x).eval t = .ok r := h
      simpa [leaves] using Leaf.isInteger_of_eval hleaf
  | unary op e ih =>
      obtain ⟨x, hx, hr⟩ := Except.bind_eq_ok_iff.1 h
      rw [← Except.ok.inj hr]
      exact (ih hx :)
  | binary op l r ihl ihr =>
      obtain ⟨x, hx, hr⟩ := Except.bind_eq_ok_iff.1 h
      obtain ⟨y, hy, hr⟩ := Except.bind_eq_ok_iff.1 hr
      rw [leaves, List.forall_mem_append, ← ihl hx, ← ihr hy, ← Except.ok.inj hr,
        Bool.and_eq_true]

/-- **A table matters at the names of the expression only.** -/
theorem eval_congr {t' : Table}
    (h : ∀ x, Leaf.name x ∈ e.leaves → t'.find? x.lexeme = t.find? x.lexeme) :
    e.eval t' = e.eval t := by
  induction e with
  | number l => rfl
  | ident x => rw [eval, eval, evalName, evalName, h x (by simp [leaves])]
  | unary op e ih => rw [eval, eval, ih h]
  | binary op l r ihl ihr =>
      simp only [leaves, List.mem_append] at h
      rw [eval, eval, ihl fun x hx => h x (.inl hx), ihr fun x hx => h x (.inr hx)]

/-- **What evaluating an expression does, told by its leaves.**  Whatever the operators and the
shape of the tree are:

* it fails just if a leaf does not resolve, and the complaint is that about the first such leaf;
* else it counts as an integer just if all leaves do;
* tables that have the same values under the names of the tree make no difference.

The leaves are taken in the order of their tokens. -/
theorem eval_by_leaves (t : Table) (e : Expr) :
    ((∃ d, e.eval t = .error d) ↔ ∃ leaf ∈ e.leaves, ¬ leaf.Resolves t) ∧
    (∀ d, e.eval t = .error d ↔ ∃ before leaf after, e.leaves = before ++ leaf :: after ∧
      (∀ earlier ∈ before, earlier.Resolves t) ∧ ¬ leaf.Resolves t ∧ d = leaf.complaint) ∧
    (∀ r, e.eval t = .ok r → (r.isInteger ↔ ∀ leaf ∈ e.leaves, leaf.IsInteger t)) ∧
    (∀ t' : Table, (∀ x, Leaf.name x ∈ e.leaves → t'.find? x.lexeme = t.find? x.lexeme) →
      e.eval t' = e.eval t) ∧
    (e.leaves.flatMap Leaf.tokens).Sublist e.tokens := by
  have hfirst : ∀ d, e.eval t = .error d ↔ ∃ before leaf after,
      e.leaves = before ++ leaf :: after ∧ (∀ earlier ∈ before, earlier.Resolves t) ∧
        ¬ leaf.Resolves t ∧ d = leaf.complaint := by
    intro d
    rw [eval_eq_error_iff, List.findSome?_eq_some_iff]
    simp only [Leaf.fault?_eq_some_iff, Leaf.eval_eq_error_iff, Leaf.fault?_eq_none_iff]
    grind
  refine ⟨⟨?_, ?_⟩, hfirst, fun r => isInteger_of_eval, fun t' => eval_congr,
    leaves_sublist_tokens e⟩
  · rintro ⟨d, hd⟩
    obtain ⟨before, leaf, after, heq, -, hleaf, -⟩ := (hfirst d).1 hd
    exact ⟨leaf, by simp [heq], hleaf⟩
  · rintro ⟨leaf, hmem, hleaf⟩
    -- some leaf is complained about, and so is the whole
    have hsome : (e.leaves.findSome? (Leaf.fault? t)).isSome := by
      rw [List.findSome?_isSome_iff]
      refine ⟨leaf, hmem, ?_⟩
      rw [Leaf.fault?_eq_some_iff.2 (Leaf.eval_eq_error_iff.2 ⟨hleaf, rfl⟩)]
      rfl
    obtain ⟨d, hd⟩ := Option.isSome_iff_exists.1 hsome
    exact ⟨d, eval_eq_error_iff.2 hd⟩

/-- Of two leaves without a value the first is complained about, whatever the operators; the table
matters at `x` alone. -/
theorem eval_two_unresolved :
    let t : Table := ⟨[⟨"x", .int 3, 1⟩, ⟨"y", .double .nan, 2⟩], by decide⟩
    let x : Token := ⟨.ident, "x", 7, 1⟩
    let z : Token := ⟨.ident, "z", 7, 4⟩
    let large : Literal := ⟨none, ⟨.number, "9223372036854775808", 7, 6⟩⟩
    let unresolved := binary ⟨.other "^", "^", 7, 2⟩ (ident x)
      (unary ⟨.illegal, "!", 7, 3⟩ (binary ⟨.slash, "/", 7, 5⟩ (ident z) (number large)))
    let square := binary ⟨.other "^", "^", 7, 2⟩ (ident x) (ident x)
    unresolved.eval t = .error ⟨.undeclared, z, ["z"]⟩ ∧
      (∀ r, square.eval t = .ok r → r.isInteger) ∧
      square.eval (⟨[⟨"x", .int 3, 9⟩], by decide⟩ : Table) = square.eval t := by
  intro t x z large unresolved square
  have hx : t.find? "x" = some (.int 3) := by decide
  have hz : t.find? "z" = none := by decide
  obtain ⟨-, herror, -, -, -⟩ := eval_by_leaves t unresolved
  obtain ⟨-, -, hinteger, hcongr, -⟩ := eval_by_leaves t square
  refine ⟨?_, fun r hr => (hinteger r hr).2 ?_, hcongr _ ?_⟩
  · refine (herror _).2 ⟨[.name x], .name z, [.number large], rfl, ?_, ?_, rfl⟩
    · simpa [Leaf.Resolves] using ⟨_, hx⟩
    · simp [Leaf.Resolves, z, hz]
  · simp [square, leaves, Leaf.IsInteger, x, hx, Value.kind]
  · intro y hy
    obtain rfl : y = x := by simpa [square, leaves] using hy
    exact Eq.trans (by decide) hx.symm

end Expr

end LineCalc
