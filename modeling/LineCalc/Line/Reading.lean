import LineCalc.Token.Scan
import LineCalc.Statement.Parser
import LineCalc.Diagnostic
/-!
# Reading a line

A line is classified, cut into tokens and parsed.  Of a print line only the expression is cut into
tokens, and in lenient mode what cannot be part of an expression is dropped.
-/
namespace LineCalc

/-- Why a line is not read. -/
inductive Refusal where
  /-- A print line is not of the form `print(`...`);`. -/
  | form
  /-- The tokens make no statement. -/
  | grammar (failure : Failure)
  deriving DecidableEq, Repr

/-- A line as it was read. -/
structure Reading where
  kind : LineKind
  body : Bytes
  tokens : List Token
  outcome : Except Refusal Statement

namespace Reading

/-- The tokens of a line of the given kind. -/
def scan (lenient : Bool) (number : Int) (kind : LineKind) (line body : Bytes) : List Token :=
  match kind with
  | .print =>
    let ts := Token.scan number body
    if lenient then Token.keepRecognized ts else ts
  | _ => Token.scan number line

/-- Reads a line whose kind and expression are known. -/
def ofKind (lenient : Bool) (number : Int) (kind : LineKind) (line body : Bytes) : Reading :=
  let ts := scan lenient number kind line body
  ⟨kind, body, ts, (Statement.parse number kind line body ts).mapError .grammar⟩

/-- Reads a line. -/
def ofLine (lenient : Bool) (number : Int) (line : Bytes) : Reading :=
  match LineKind.ofLine line with
  | .print =>
    match LineKind.printBody? line with
    | some body => ofKind lenient number .print line body
    | none => ⟨.print, [], [], .error .form⟩
  | k => ofKind lenient number k line []

/-- The failure of the parser, if it is one. -/
def failure? (r : Reading) : Option Failure :=
  match r.outcome with
  | .error (.grammar f) => some f
  | _ => none

/-- The statement of the line, if it was read. -/
def statement? (r : Reading) : Option Statement := r.outcome.toOption

/-- The complaint about a line that was not read. -/
def diagnostic? (r : Reading) (number : Int) (line : Bytes) : Option Diagnostic :=
  match r.outcome with
  | .ok _ => none
  | .error .form => some ⟨.printForm, .wholeLine number, [line]⟩
  | .error (.grammar f) =>
    match r.kind with
    | .declaration => some ⟨.declaration, .wholeLine number, [line]⟩
    | .assignment => some ⟨.assignment, .wholeLine number, [line]⟩
    | .print => some ⟨.expression, .wholeLine number, [r.body, f.message]⟩

/-- The lines written before anything is executed: a print line repeats itself. -/
def echo (kind : LineKind) (line : Bytes) : List Bytes :=
  match kind with
  | .print => [line]
  | _ => []

end Reading

/-- Whether the code of a statement reads back as a statement with the same code. -/
def Statement.rereads (s : Statement) : Bool :=
  (Reading.ofLine false 1 s.code).statement?.map Statement.code == some s.code

end LineCalc
