import LineCalc.Expr.Basic
import LineCalc.Expr.Failure
/-!
# Parsing expressions

Expressions are read by precedence climbing: products bind tighter than sums, both group to the
left, and a sign applies to the operand after it.  Signs and right operands may be nested only so
deep; the operators of a chain do not nest.
-/
namespace LineCalc

/-- How tightly a binary operator binds; zero for all other tokens. -/
def TokenKind.precedence : TokenKind → Nat
  | .plus | .minus => 1
  | .times | .slash => 2
  | _ => 0

/-- How tightly a sign binds. -/
def signPrecedence : Nat := 3

/-- How deep operands may be nested. -/
def nestingLimit : Nat := 1000

/-- An expression at the front of fewer than `bound` tokens, and the tokens after it. -/
structure Parsed (bound : Nat) where
  expr : Expr
  rest : List Token
  rest_lt : rest.length < bound

namespace Expr

/-- Extends `left` by the operators at the front of `rest` that bind tighter than `level`, each
with the operand that `operand` reads behind it. -/
def climb {bound : Nat} (operand : Nat → (ts : List Token) → Except Failure (Parsed ts.length))
    (level : Nat) (left : Expr) (rest : List Token) (h : rest.length < bound) :
    Except Failure (Parsed bound) :=
  match rest with
  | [] => .ok ⟨left, [], h⟩
  | t :: r =>
    if level < t.kind.precedence then
      match operand t.kind.precedence r with
      | .error f => .error f
      | .ok p =>
        have := p.rest_lt
        climb operand level (.binary t left p.expr) p.rest (by simp at h; omega)
    else .ok ⟨left, t :: r, h⟩
termination_by rest.length
decreasing_by simp; omega

/-- The expression at the front of the tokens whose operators bind tighter than `level`, with at
most `depth` operands nested in each other. -/
def parseAt : (depth : Nat) → (level : Nat) → (ts : List Token) → Except Failure (Parsed ts.length)
  | 0, _, _ => .error .tooDeep
  | _ + 1, _, [] => .error (.unexpected none)
  | depth + 1, level, t :: r =>
    match t.kind with
    | .number => climb (parseAt depth) level (.number ⟨none, t⟩) r (by simp)
    | .ident => climb (parseAt depth) level (.ident t) r (by simp)
    | .plus | .minus =>
      match parseAt depth signPrecedence r with
      | .error f => .error f
      | .ok p =>
        have := p.rest_lt
        climb (parseAt depth) level (.unary t p.expr) p.rest (by simp; omega)
    | _ => .error (.unexpected (some t))

/-- The expression that all the tokens make up. -/
def parse (ts : List Token) : Except Failure Expr :=
  if ts.isEmpty then .error .emptyExpression
  else
    match parseAt nestingLimit 0 ts with
    | .error f => .error f
    | .ok ⟨e, [], _⟩ => .ok e
    | .ok ⟨_, t :: _, _⟩ => .error (.unexpected (some t))

end Expr

end LineCalc
