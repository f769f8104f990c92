import LineCalc.Statement.Exec
import LineCalc.Store
/-!
# Carrying out statements

A statement reads the store and makes at most one change of it, at its end.  Where it fails, it
leaves a store beside its complaint.

* `Statement.run` : a statement is carried out;
* `Statement.on_runDeclaration`, `Statement.on_runAssignment`, `Statement.on_run_print` : what is
  left on every path;
* `Statement.preserves_run` : the store stays in step.
-/
namespace LineCalc.Statement

/-- Declares a variable. -/
def runDeclaration (type name : Token) (value : Option Literal) : Change Store Diagnostic Unit := do
  let v ← MonadExcept.ofExcept (declaredValue type value)
  (Store.declare name.lexeme v type.line).adapt (refusal name)

/-- Stores a literal or the value of another variable. -/
def runAssignment (name : Token) (value : Expr) : Change Store Diagnostic Unit := do
  match (← get).find? name.lexeme with
  | none => throw ⟨.undeclared, name, [name.lexeme]⟩
  | some current =>
    let v ← MonadExcept.ofExcept (assignedValue (← get).find? name current.kind value)
    (Store.update name.lexeme v).adapt (refusal name)

/-- Carries out a statement and gives the lines that it writes.  A print of nothing writes
nothing. -/
def run : Statement → Change Store Diagnostic (List Bytes)
  | declaration type name value => do
    runDeclaration type name value
    return []
  | assignment name value => do
    runAssignment name value
    return []
  | print keyword _ _ (some value) => do
    MonadExcept.ofExcept (execPrint (← get).find? keyword value)
  | print _ _ _ none => return []

/-! ## What is left -/

/-- **What a declaration leaves.**  Its value is known before anything is written. -/
theorem on_runDeclaration (σ : Store) (type name : Token) (value : Option Literal) :
    (runDeclaration type name value).on σ =
      match declaredValue type value with
      | .error d => (.error d, σ)
      | .ok v =>
        ((((Store.declare name.lexeme v type.line).on σ).1.mapError (refusal name)),
          ((Store.declare name.lexeme v type.line).on σ).2) := by
  simp only [runDeclaration, Change.on_bind, Change.on_ofExcept, Change.on_adapt]
  cases declaredValue type value with
  | error d => rfl
  | ok v => rfl

/-- **What an assignment leaves.**  Its value is known before anything is written. -/
theorem on_runAssignment (σ : Store) (name : Token) (value : Expr) :
    (runAssignment name value).on σ =
      match σ.find? name.lexeme with
      | none => (.error ⟨.undeclared, name, [name.lexeme]⟩, σ)
      | some current =>
        match assignedValue σ.find? name current.kind value with
        | .error d => (.error d, σ)
        | .ok v =>
          ((((Store.update name.lexeme v).on σ).1.mapError (refusal name)),
            ((Store.update name.lexeme v).on σ).2) := by
  simp only [runAssignment, Change.on_bind, Change.on_get]
  cases σ.find? name.lexeme with
  | none => rfl
  | some current =>
      simp only [Change.on_bind, Change.on_get, Change.on_ofExcept, Change.on_adapt]
      cases assignedValue σ.find? name current.kind value with
      | error d => rfl
      | ok v => rfl

/-- A declaration writes no line. -/
theorem on_run_declaration (σ : Store) (type name : Token) (value : Option Literal) :
    (run (declaration type name value)).on σ =
      (((runDeclaration type name value).on σ).1.map fun _ => [],
        ((runDeclaration type name value).on σ).2) := by
  rw [run, Change.on_bind]
  cases (runDeclaration type name value).on σ with
  | mk r σ' =>
      cases r with
      | error d => rfl
      | ok u => rfl

/-- An assignment writes no line. -/
theorem on_run_assignment (σ : Store) (name : Token) (value : Expr) :
    (run (assignment name value)).on σ =
      (((runAssignment name value).on σ).1.map fun _ => [],
        ((runAssignment name value).on σ).2) := by
  rw [run, Change.on_bind]
  cases (runAssignment name value).on σ with
  | mk r σ' =>
      cases r with
      | error d => rfl
      | ok u => rfl

/-- **What a print leaves**: the store as it was. -/
theorem on_run_print (σ : Store) (keyword : Token) (line body : Bytes) (value : Option Expr) :
    (run (print keyword line body value)).on σ =
      (match value with
        | none => .ok []
        | some e => execPrint σ.find? keyword e, σ) := by
  cases value with
  | none => rfl
  | some e => simp only [run, Change.on_bind, Change.on_get, Change.on_ofExcept]

/-! ## The store in step -/

/-- A declaration keeps the store in step. -/
theorem preserves_runDeclaration (type name : Token) (value : Option Literal) :
    (runDeclaration type name value).Preserves Store.InStep := by
  intro σ hσ
  rw [on_runDeclaration]
  split
  · exact hσ
  · next v _ => exact Store.preserves_declare name.lexeme v type.line σ hσ

/-- An assignment keeps the store in step. -/
theorem preserves_runAssignment (name : Token) (value : Expr) :
    (runAssignment name value).Preserves Store.InStep := by
  intro σ hσ
  rw [on_runAssignment]
  split
  · exact hσ
  · split
    · exact hσ
    · next v _ => exact Store.preserves_update name.lexeme v σ hσ

/-- **A statement keeps the store in step**, however it ends. -/
theorem preserves_run (s : Statement) : s.run.Preserves Store.InStep := by
  cases s with
  | declaration type name value =>
      exact (preserves_runDeclaration type name value).bind fun _ => Change.preserves_pure _
  | assignment name value =>
      exact (preserves_runAssignment name value).bind fun _ => Change.preserves_pure _
  | print keyword line body value =>
      intro σ hσ
      rw [on_run_print]
      exact hσ

end LineCalc.Statement
