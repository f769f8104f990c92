import LineCalc.Statement.Basic
import LineCalc.Expr.Parser
/-!
# Parsing statements

A declaration is a type, a name that is not reserved, an optional literal after `=`, and a
semicolon; an assignment is a name, `=`, a literal or a name, and an optional semicolon; a print
is an expression.  The tokens given here do not include the end of the line.
-/
namespace LineCalc.Statement

/-- The first token, which must be of the given kind, and the tokens after it. -/
def expect (kind : TokenKind) : List Token → Except Failure (Token × List Token)
  | [] => .error (.expected kind none)
  | t :: r => if t.kind = kind then .ok (t, r) else .error (.expected kind (some t))

/-- Succeeds if no tokens are left. -/
def expectEnd : List Token → Except Failure Unit
  | [] => .ok ()
  | t :: _ => .error (.expected .eof (some t))

/-- The literal at the front of the tokens and the tokens after it.  A sign must touch its
number. -/
def parseLiteral : List Token → Except Failure (Literal × List Token)
  | [] => .error (.expected .number none)
  | t :: r =>
    if t.kind = .number then .ok (⟨none, t⟩, r)
    else if t.kind = .plus ∨ t.kind = .minus then
      match expect .number r with
      | .error f => .error f
      | .ok (n, r') =>
        if n.column = t.column + 1 then .ok (⟨some t, n⟩, r') else .error .detachedSign
    else .error (.expected .number (some t))

/-- The optional initial value of a declaration, and the tokens after it. -/
def parseInitial : List Token → Except Failure (Option Literal × List Token)
  | t :: r => if t.kind = .assign then (parseLiteral r).map fun (l, r') => (some l, r')
    else .ok (none, t :: r)
  | [] => .ok (none, [])

/-- The tokens after an optional semicolon. -/
def dropSemicolon : List Token → List Token
  | t :: r => if t.kind = .semicolon then r else t :: r
  | [] => []

/-- A declaration. -/
def parseDeclaration : List Token → Except Failure Statement
  | [] => .error .expectedType
  | t :: r =>
    if t.kind = .ident ∧ (t.lexeme = utf8 "int" ∨ t.lexeme = utf8 "double") then do
      let (name, r) ← expect .ident r
      if isReserved name.lexeme then throw (.reserved name.lexeme)
      let (value, r) ← parseInitial r
      let (_, r) ← expect .semicolon r
      expectEnd r
      return declaration t name value
    else .error .expectedType

/-- The right side of an assignment, and the tokens after it. -/
def parseSource : List Token → Except Failure (Expr × List Token)
  | t :: r => if t.kind = .ident then .ok (.ident t, r)
    else (parseLiteral (t :: r)).map fun (l, r') => (.number l, r')
  | [] => .error (.expected .number none)

/-- An assignment. -/
def parseAssignment (ts : List Token) : Except Failure Statement := do
  let (name, r) ← expect .ident ts
  let (_, r) ← expect .assign r
  let (value, r) ← parseSource r
  expectEnd (dropSemicolon r)
  return assignment name value

/-- The statement of a line: its number, its kind, its text, the text of its expression if it is a
print line, and its tokens, the last of which is the end of the line. -/
def parse (number : Int) (kind : LineKind) (line body : Bytes) (ts : List Token) :
    Except Failure Statement :=
  let ts := ts.takeWhile (·.kind != .eof)
  match kind with
  | .declaration => parseDeclaration ts
  | .assignment => parseAssignment ts
  | .print => (Expr.parse ts).map fun e => print ⟨.ident, "print", number, 1⟩ line body (some e)

end LineCalc.Statement
