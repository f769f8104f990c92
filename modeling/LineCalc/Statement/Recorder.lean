import LineCalc.Statement.Parser
/-!
# Parsing with a record

The parser of a line gives a statement or nothing.  Beside that it keeps a record, the words for the
first thing that was wrong; what goes wrong after it is not recorded.
-/
namespace LineCalc

/-- A parser with its record. -/
abbrev Recorder (α : Type) := OptionT (StateM Bytes) α

namespace Recorder

variable {α : Type}

/-- What is parsed, if anything, and the record after the given one. -/
def on (x : Recorder α) (record : Bytes) : Option α × Bytes := (x.run.run record).run

/-- Gives nothing, and records the failure unless something is recorded. -/
def fail (f : Failure) : Recorder α := do
  if (← get).isEmpty then set f.message
  failure

/-! ## Expressions -/

/-- Extends `left` by the operators at the front of `rest` that bind tighter than `level`, each
with the operand that `operand` reads behind it. -/
def climb {bound : Nat} (operand : Nat → (ts : List Token) → Recorder (Parsed ts.length))
    (level : Nat) (left : Expr) (rest : List Token) (h : rest.length < bound) :
    Recorder (Parsed bound) :=
  match rest with
  | [] => pure ⟨left, [], h⟩
  | t :: r =>
    if level < t.kind.precedence then do
      let p ← operand t.kind.precedence r
      have := p.rest_lt
      climb operand level (.binary t left p.expr) p.rest (by simp at h; omega)
    else pure ⟨left, t :: r, h⟩
termination_by rest.length
decreasing_by simp; omega

/-- The expression at the front of the tokens whose operators bind tighter than `level`, with at
most `depth` operands nested in each other. -/
def parseAt : (depth : Nat) → (level : Nat) → (ts : List Token) → Recorder (Parsed ts.length)
  | 0, _, _ => fail .tooDeep
  | _ + 1, _, [] => fail (.unexpected none)
  | depth + 1, level, t :: r =>
    match t.kind with
    | .number => climb (parseAt depth) level (.number ⟨none, t⟩) r (Nat.lt_succ_self _)
    | .ident => climb (parseAt depth) level (.ident t) r (Nat.lt_succ_self _)
    | .plus | .minus => do
      let p ← parseAt depth signPrecedence r
      climb (parseAt depth) level (.unary t p.expr) p.rest (Nat.lt_succ_of_lt p.rest_lt)
    | _ => fail (.unexpected (some t))

/-- The expression that all the tokens make up. -/
def expression (ts : List Token) : Recorder Expr :=
  if ts.isEmpty then fail .emptyExpression
  else do
    match ← parseAt nestingLimit 0 ts with
    | ⟨e, [], _⟩ => pure e
    | ⟨_, t :: _, _⟩ => fail (.unexpected (some t))

/-! ## Statements -/

/-- The first token, which must be of the given kind, and the tokens after it. -/
def expect (kind : TokenKind) : List Token → Recorder (Token × List Token)
  | [] => fail (.expected kind none)
  | t :: r => if t.kind = kind then pure (t, r) else fail (.expected kind (some t))

/-- Succeeds if no tokens are left. -/
def expectEnd : List Token → Recorder Unit
  | [] => pure ()
  | t :: _ => fail (.expected .eof (some t))

/-- The literal at the front of the tokens and the tokens after it. -/
def literal : List Token → Recorder (Literal × List Token)
  | [] => fail (.expected .number none)
  | t :: r =>
    if t.kind = .number then pure (⟨none, t⟩, r)
    else if t.kind = .plus ∨ t.kind = .minus then do
      let (n, r) ← expect .number r
      if n.column = t.column + 1 then pure (⟨some t, n⟩, r) else fail .detachedSign
    else fail (.expected .number (some t))

/-- The optional initial value of a declaration, and the tokens after it. -/
def initial : List Token → Recorder (Option Literal × List Token)
  | t :: r =>
    if t.kind = .assign then do
      let (l, r) ← literal r
      return (some l, r)
    else pure (none, t :: r)
  | [] => pure (none, [])

/-- A declaration. -/
def declaration : List Token → Recorder Statement
  | [] => fail .expectedType
  | t :: r =>
    if t.kind = .ident ∧ (t.lexeme = utf8 "int" ∨ t.lexeme = utf8 "double") then do
      let (name, r) ← expect .ident r
      if isReserved name.lexeme then fail (.reserved name.lexeme)
      let (value, r) ← initial r
      let (_, r) ← expect .semicolon r
      expectEnd r
      return .declaration t name value
    else fail .expectedType

/-- The right side of an assignment, and the tokens after it. -/
def source : List Token → Recorder (Expr × List Token)
  | t :: r =>
    if t.kind = .ident then pure (.ident t, r)
    else do
      let (l, r) ← literal (t :: r)
      return (.number l, r)
  | [] => fail (.expected .number none)

/-- An assignment. -/
def assignment (ts : List Token) : Recorder Statement := do
  let (name, r) ← expect .ident ts
  let (_, r) ← expect .assign r
  let (value, r) ← source r
  expectEnd (Statement.dropSemicolon r)
  return .assignment name value

/-- The statement of a line: its number, its kind, its text, the text of its expression if it is a
print line, and its tokens, the last of which is the end of the line. -/
def statement (number : Int) (kind : LineKind) (line body : Bytes) (ts : List Token) :
    Recorder Statement :=
  let ts := ts.takeWhile (·.kind != .eof)
  match kind with
  | .declaration => declaration ts
  | .assignment => assignment ts
  | .print => do
    let e ← expression ts
    return .print ⟨.ident, "print", number, 1⟩ line body (some e)

end Recorder

end LineCalc
