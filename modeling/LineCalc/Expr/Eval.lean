import LineCalc.Expr.Basic
import LineCalc.Table
import LineCalc.Diagnostic
/-!
# Evaluating expressions

Expressions are computed in doubles.  The result counts as an integer if every leaf does: a literal
without a point or a variable of kind int.
-/
namespace LineCalc

/-- What an expression can read: the values of variables, by their names. -/
abbrev Scope := Bytes → Option Value

/-- Of a table, the values are read. -/
instance : Coe Table Scope := ⟨Table.find?⟩

/-- The value of an expression, and whether it is shown as an integer. -/
structure Result where
  value : Double
  isInteger : Bool
  deriving DecidableEq

/-- Why a result cannot be shown. -/
def divisionByZero : Bytes := "division by zero"

/-- The result as it is printed: an integer result without its fraction and within 64 bits.  An
integer result that is not finite cannot be shown. -/
def Result.toText? (r : Result) : Option Bytes :=
  if r.isInteger then r.value.saturate?.map fun i => Bytes.ofInt i.toInt
  else some r.value.toText

namespace Expr

/-- The result of a binary operator; whatever is no sum, difference or product divides. -/
def applyBinary : TokenKind → Double → Double → Double
  | .plus, x, y => x + y
  | .minus, x, y => x - y
  | .times, x, y => x * y
  | _, x, y => x / y

/-- The result of a sign; whatever is no minus changes nothing. -/
def applyUnary : TokenKind → Double → Double
  | .minus, x => -x
  | _, x => x

/-- The value of a literal, read as a double if it has a point. -/
def evalLiteral (l : Literal) : Except Diagnostic Result :=
  let kind := if l.isFractional then Kind.double else .int
  match Value.read? kind l.text with
  | some v => .ok ⟨v.toDouble, kind == .int⟩
  | none => .error ⟨.literal, l.token, [kind.text, l.text]⟩

/-- The value of a variable. -/
def evalName (scope : Scope) (name : Token) : Except Diagnostic Result :=
  match scope name.lexeme with
  | some v => .ok ⟨v.toDouble, v.kind == .int⟩
  | none => .error ⟨.undeclared, name, [name.lexeme]⟩

/-- The value of an expression.  The leaves are resolved from left to right. -/
def eval (scope : Scope) : Expr → Except Diagnostic Result
  | number l => evalLiteral l
  | ident name => evalName scope name
  | unary op e => do
    let r ← eval scope e
    return ⟨applyUnary op.kind r.value, r.isInteger⟩
  | binary op l r => do
    let x ← eval scope l
    let y ← eval scope r
    return ⟨applyBinary op.kind x.value y.value, x.isInteger && y.isInteger⟩

end Expr

end LineCalc
