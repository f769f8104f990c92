import LineCalc.Statement.Basic
import LineCalc.Expr.Eval
/-!
# Executing statements

A statement changes at most the variable it names, or prints the value of an expression.  One that
fails changes nothing.
-/
namespace LineCalc.Statement

/-- The complaint about a value that the table refuses. -/
def refusal (name : Token) : TableError → Diagnostic
  | .undeclared _ => ⟨.undeclared, name, [name.lexeme]⟩
  | e => ⟨.mismatch, name, [e.detail]⟩

/-- The value of the given kind that a literal writes. -/
def literalValue (k : Kind) (l : Literal) : Except Diagnostic Value :=
  match Value.read? k l.text with
  | some v => .ok v
  | none => .error ⟨.literal, l.token, [k.text, l.text]⟩

/-- The value that a declaration gives to its variable: zero if none is written. -/
def declaredValue (type : Token) (value : Option Literal) : Except Diagnostic Value :=
  match Kind.ofText? type.lexeme with
  | none => .error ⟨.declaration, type, [type.lexeme]⟩
  | some k =>
    match value with
    | none => .ok (.zero k)
    | some l => literalValue k l

/-- Declares a variable. -/
def execDeclaration (t : Table) (type name : Token) (value : Option Literal) :
    Except Diagnostic Table := do
  let v ← declaredValue type value
  (t.declare name.lexeme v type.line).mapError (refusal name)

/-- The value that an assignment to a variable `name` of kind `k` stores. -/
def assignedValue (scope : Scope) (name : Token) (k : Kind) : Expr → Except Diagnostic Value
  | .ident source =>
    match scope source.lexeme with
    | none => .error ⟨.undeclared, source, [source.lexeme]⟩
    | some v =>
      if v.kind = k then .ok v
      else .error ⟨.mismatch, source,
        [utf8 "cannot assign " ++ v.kind.text ++ utf8 " variable " ++ source.lexeme ++
          utf8 " to " ++ k.text ++ utf8 " variable " ++ name.lexeme]⟩
  | .number l => literalValue k l
  | _ => .error ⟨.assignment, name, [name.lexeme]⟩

/-- Stores a literal or the value of another variable. -/
def execAssignment (t : Table) (name : Token) (value : Expr) : Except Diagnostic Table :=
  match t.find? name.lexeme with
  | none => .error ⟨.undeclared, name, [name.lexeme]⟩
  | some current => do
    let v ← assignedValue t name current.kind value
    (t.update name.lexeme v).mapError (refusal name)

/-- The lines that a print writes: the result and an empty line. -/
def execPrint (scope : Scope) (keyword : Token) (value : Expr) :
    Except Diagnostic (List Bytes) := do
  let r ← value.eval scope
  match r.toText? with
  | some s => return [utf8 "Result: " ++ s, []]
  | none => throw ⟨.arithmetic, keyword, [divisionByZero]⟩

/-- Executes a statement: the table after it and the lines it writes.  A print of nothing writes
nothing. -/
def exec (t : Table) : Statement → Except Diagnostic (Table × List Bytes)
  | declaration type name value => (execDeclaration t type name value).map (·, [])
  | assignment name value => (execAssignment t name value).map (·, [])
  | print keyword _ _ (some value) => (execPrint t keyword value).map (t, ·)
  | print _ _ _ none => .ok (t, [])

end LineCalc.Statement
