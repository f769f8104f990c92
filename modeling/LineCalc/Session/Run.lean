import LineCalc.Session.Basic
import LineCalc.Line.Context
import LineCalc.Snapshot.Document
/-!
# Running programs

The lines of a program run one after the other, each under its number; blank lines only count.  A
complaint about a line does not stop the run, but a line of a mebibyte or more does.
-/
namespace LineCalc

/-- The length from which on a line is too long. -/
def lineLimit : Nat := 2 ^ (20 : Nat)

/-- The lines of a program; the last one need not end with a line break. -/
def programLines (text : Bytes) : List Bytes :=
  let lines := Bytes.splitAt 0x0a text
  if lines.getLast? == some [] then lines.dropLast else lines

namespace Session

/-! ## Lines -/

/-- The notes on a line: its kind, its tree, its result and its complaints. -/
def trace (c : Context) : List Bytes :=
  let label := utf8 "line " ++ Bytes.ofInt c.number
  let tree := match c.statement with
    | some s =>
      [label ++ utf8 " tree:\n" ++ (s.tree.reverse.dropWhile (· == 0x0a)).reverse]
    | none => []
  let results := c.output.filter (utf8 "Result: ").isPrefixOf
  let complaints := c.errors.map fun d => d.code.family ++ utf8 " " ++ d.code.text
  [label ++ utf8 ": " ++ (c.kind.map LineKind.text).getD (utf8 "unknown")] ++ tree ++
    (results ++ complaints).map fun t => label ++ utf8 ": " ++ t

/-- Notes what was done with the line, if there is a log. -/
def noteLine (s : Session) (c : Context) : Session :=
  if s.options.debug then (trace c).foldl note s else s

/-- Counts a complaint and writes it. -/
def report (s : Session) (d : Diagnostic) : Session :=
  { s with errors := s.errors + 1 }.writeLine (s.paint (utf8 "- " ++ d.text))

/-- Runs a line that is not blank. -/
def runLine (s : Session) (number : Nat) (line : Bytes) : Session :=
  let c := (Context.start s.store s.options.lenient number line).run
  let s := (s.keep c.store (Context.inStep_run s.inStep)).noteLine c
  c.errors.foldl report (c.output.foldl writeLine s)

/-- Runs the lines of a program from line `number` on. -/
def runLines (isCancelled : Bool) (s : Session) (number : Nat) :
    List Bytes → Session × Option RunError
  | [] => (s, none)
  | line :: rest =>
    if lineLimit ≤ line.length then (s, some .lineTooLong)
    else if isCancelled then (s, some .cancelled)
    else
      let line := Text.trim line
      runLines isCancelled (if line.isEmpty then s else s.runLine number line) (number + 1) rest

/-! ## Programs -/

/-- Notes where the program comes from. -/
def announce (s : Session) : Session :=
  let s := if s.source.isEmpty then { s with source := Path.stream } else s
  let s := s.noteRun (utf8 "source " ++ s.source)
  if s.source != Path.stream && !Path.isProgram s.source then
    s.noteRun (s.source ++ utf8 " does not have a recognized source extension [" ++
      (utf8 " ").intercalate Path.extensions ++ utf8 "]")
  else s

/-- Runs a program. -/
def run (s : Session) (text : Bytes) (isCancelled : Bool) : Session × Option RunError :=
  s.announce.runLines isCancelled 1 (programLines text)

/-! ## The end of a run -/

/-- The variables of the session. -/
def snapshot (s : Session) : Snapshot := .ofTable s.runId (Path.displayName s.source) s.table

/-- The listing at the end, and the error if the output refuses it. -/
def listing (s : Session) : Bytes × RunError :=
  match s.options.dump with
  | .yaml => (s.snapshot.document, .documentRefused)
  | _ => (s.table.dump, .dumpRefused)

/-- Writes the listing at the end. -/
def writeListing (s : Session) : Except RunError Session :=
  if s.options.dump = .none then .ok s
  else match s.output.write? s.listing.1 with
    | some o => .ok { s with output := o }
    | none => .error s.listing.2

/-- Puts the variables into the database, if there is to be one. -/
def exportRows (s : Session) (isCancelled : Bool) : Session × Option RunError :=
  let path := s.options.exportDb
  if path.isEmpty then (s, none)
  else match s.workspace.store path s.snapshot isCancelled with
    | (w, some e) => ({ s with workspace := w }, some (.exportFailed path e))
    | (w, none) =>
      ({ s with workspace := w }.noteRun (utf8 "exported " ++ Bytes.ofNat s.table.size ++
        utf8 " variables to " ++ path), none)

/-- Ends a run: the listing, then the database. -/
def finish (s : Session) (isCancelled : Bool) : Session × Option RunError :=
  match s.writeListing with
  | .error e => (s, some e)
  | .ok s => s.exportRows isCancelled

/-- Runs the program in a file and ends the run.  If there is no such file, the run ends at once,
with a complaint on the output. -/
def runFile (s : Session) (path : Bytes) (isCancelled : Bool) : Session × Option RunError :=
  let s := { s with source := path }
  match s.workspace.openFile path with
  | .error e =>
    let s := (s.noteRun e.message).writeLine (utf8 "Error: " ++ (RunError.notFound path).message)
    match s.finish isCancelled with
    | (s, some e) => (s, some e)
    | (s, none) => (s, some (.sourceNotFound path))
  | .ok place =>
    match Workspace.read path place with
    | .error e => (s.announce, some (.unreadable e))
    | .ok text =>
      match s.run text isCancelled with
      | (s, some e) => (s, some e)
      | (s, none) => s.finish isCancelled

end Session

end LineCalc
