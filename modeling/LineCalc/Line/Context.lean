import LineCalc.Line.Step
import LineCalc.Statement.Recorder
import LineCalc.Statement.Run
/-!
# The stages of a line

A line is run in four stages on one context: it is classified, cut into tokens, parsed and
evaluated.  All four run in any case, and each of them passes the context on as it is if what it
needs is not there or something was wrong before.

* `Context` : what the stages share;
* `Context.classify`, `Context.scan`, `Context.parse`, `Context.evaluate` : the stages;
* `Context.run` : all of them, one after the other;
* `Context.inStep_run` : they leave a store in step.
-/
namespace LineCalc

/-- What the stages of a line share. -/
structure Context where
  number : Int
  line : Bytes
  lenient : Bool
  /-- What the line is taken for, once it is classified. -/
  kind : Option LineKind
  /-- The expression of a print line, without its white space. -/
  body : Bytes
  /-- The tokens, once there are any. -/
  tokens : Option (List Token)
  statement : Option Statement
  store : Store
  output : List Bytes
  errors : List Diagnostic

namespace Context

/-- The context of a line before its first stage. -/
def start (store : Store) (lenient : Bool) (number : Int) (line : Bytes) : Context :=
  ⟨number, line, lenient, none, [], none, none, store, [], []⟩

/-- Whether something was wrong. -/
def failed (c : Context) : Bool := !c.errors.isEmpty

/-- One more complaint. -/
def addError (c : Context) (d : Diagnostic) : Context := { c with errors := c.errors ++ [d] }

/-- One more line of output. -/
def emit (c : Context) (line : Bytes) : Context := { c with output := c.output ++ [line] }

/-! ## The stages -/

/-- Classifies the line.  A print line is repeated before anything else, and its expression is taken
out. -/
def classify (c : Context) : Context :=
  let kind := LineKind.ofLine c.line
  let c := { c with kind := some kind }
  if kind ≠ .print then c
  else
    let c := c.emit c.line
    match LineKind.printBody? c.line with
    | none => c.addError ⟨.printForm, .wholeLine c.number, [c.line]⟩
    | some body => { c with body := body }

/-- Cuts the line into tokens, or the expression of a print line. -/
def scan (c : Context) : Context :=
  if c.failed then c
  else if c.kind = some .print then
    let ts := Token.scan c.number c.body
    { c with tokens := some (if c.lenient then Token.keepRecognized ts else ts) }
  else { c with tokens := some (Token.scan c.number c.line) }

/-- The complaint about a line of a kind that does not parse, with what its parser recorded. -/
def syntaxError (c : Context) (kind : LineKind) (record : Bytes) : Diagnostic :=
  match kind with
  | .declaration => ⟨.declaration, .wholeLine c.number, [c.line]⟩
  | .assignment => ⟨.assignment, .wholeLine c.number, [c.line]⟩
  | .print => ⟨.expression, .wholeLine c.number, [c.body, record]⟩

/-- Parses the tokens.  A line that was not classified has no statement and no complaint. -/
def parse (c : Context) : Context :=
  if c.failed then c
  else match c.tokens with
    | none => c
    | some ts =>
      match c.kind with
      | none => { c with statement := none }
      | some kind =>
        match (Recorder.statement c.number kind c.line c.body ts).on [] with
        | (some s, _) => { c with statement := some s }
        | (none, record) =>
          { c with statement := none }.addError (c.syntaxError kind record)

/-- Carries out a statement: it writes its lines, or is complained about. -/
def carryOut (c : Context) (s : Statement) : Context :=
  match s.run.on c.store with
  | (.error d, store) => { c with store := store }.addError (Step.place c.number d)
  | (.ok out, store) => out.foldl emit { c with store := store }

/-- Carries out the statement of the line. -/
def evaluate (c : Context) : Context :=
  match c.statement with
  | none => c
  | some s => if c.failed then c else c.carryOut s

/-- The stages in their order. -/
def stages : List (Context → Context) := [classify, scan, parse, evaluate]

/-- Runs all stages. -/
def run (c : Context) : Context := stages.foldl (fun c stage => stage c) c

/-! ## The store -/

/-- Classifying leaves the store as it is. -/
@[simp]
theorem store_classify (c : Context) : c.classify.store = c.store := by
  unfold classify
  dsimp only
  split
  · rfl
  · split
    · rfl
    · rfl

/-- So does cutting into tokens. -/
@[simp]
theorem store_scan (c : Context) : c.scan.store = c.store := by
  unfold scan
  split
  · rfl
  · split
    · rfl
    · rfl

/-- So does parsing. -/
@[simp]
theorem store_parse (c : Context) : c.parse.store = c.store := by
  unfold parse
  split
  · rfl
  · split
    · rfl
    · split
      · rfl
      · split
        · rfl
        · rfl

/-- Output is written line by line, and changes nothing else. -/
theorem foldl_emit (out : List Bytes) (c : Context) :
    out.foldl emit c = { c with output := c.output ++ out } := by
  induction out generalizing c with
  | nil => simp
  | cons line out ih => simp [ih, emit]

/-- Carrying out the statement keeps the store in step. -/
theorem inStep_evaluate {c : Context} (h : c.store.InStep) : c.evaluate.store.InStep := by
  unfold evaluate
  split
  · exact h
  · next s _ =>
      split
      · exact h
      · have hrun := Statement.preserves_run s c.store h
        unfold carryOut
        split
        · next d store hs =>
            rw [hs] at hrun
            exact hrun
        · next out store hs =>
            rw [hs] at hrun
            rw [foldl_emit]
            exact hrun

/-- All stages leave a store in step. -/
theorem inStep_run {c : Context} (h : c.store.InStep) : c.run.store.InStep := by
  apply inStep_evaluate
  simpa using h

end Context

end LineCalc
