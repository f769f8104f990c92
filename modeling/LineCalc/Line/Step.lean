import LineCalc.Line.Reading
import LineCalc.Statement.Exec
/-!
# Running a line

Reading a line and executing its statement, with the lines written, the complaint if there is one,
and the table afterwards.
-/
namespace LineCalc

/-- What running one line did. -/
structure Step where
  kind : LineKind
  statement? : Option Statement
  output : List Bytes
  diagnostic? : Option Diagnostic
  table : Table

namespace Step

/-- A complaint without a line is about the line being run. -/
def place (number : Int) (d : Diagnostic) : Diagnostic :=
  if d.token.line = 0 then { d with token := .wholeLine number } else d

/-- Executes the statement of line `number`: the lines it writes, its complaint, and the table
after it. -/
def execute (t : Table) (number : Int) (s : Statement) :
    List Bytes × Option Diagnostic × Table :=
  match s.exec t with
  | .ok (t', out) => (out, none, t')
  | .error d => ([], some (place number d), t)

/-- Runs one line. -/
def ofLine (lenient : Bool) (t : Table) (number : Int) (line : Bytes) : Step :=
  let r := Reading.ofLine lenient number line
  let echo := Reading.echo r.kind line
  match r.statement? with
  | none => ⟨r.kind, none, echo, r.diagnostic? number line, t⟩
  | some s =>
    let (out, d, t') := execute t number s
    ⟨r.kind, some s, echo ++ out, d, t'⟩

end Step

end LineCalc
