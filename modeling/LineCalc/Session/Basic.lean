import LineCalc.Workspace
import LineCalc.Diagnostic
import LineCalc.Store
/-!
# Sessions

A session runs programs on one store of variables.  It writes results and complaints to its
output, keeps a log if it is asked to, and in the end lists the variables and may put them into a
database.
-/
namespace LineCalc

/-! ## Options -/

/-- The formats of the listing at the end. -/
inductive DumpFormat where
  | text
  | yaml
  | none
  deriving DecidableEq, Repr

/-- The format of the given name; any other name is that of the text listing. -/
def DumpFormat.ofText (name : Bytes) : DumpFormat :=
  if name == utf8 "yaml" then yaml else if name == utf8 "none" then none else text

/-- How a session runs. -/
structure Options where
  lenient : Bool
  dump : DumpFormat
  color : Bool
  /-- The database that takes the variables at the end; empty for none. -/
  exportDb : Bytes
  /-- Whether the session keeps a log. -/
  debug : Bool

/-! ## Output -/

/-- The output: what was written, piece by piece, and how many bytes it can take, if that is
limited. -/
structure Output where
  limit : Option Nat
  pieces : Array Bytes
  size : Nat

namespace Output

/-- The output that has taken nothing. -/
def empty (limit : Option Nat) : Output := ⟨limit, #[], 0⟩

/-- The output after a piece that it can take; `none` if the piece is too large for it. -/
def write? (o : Output) (piece : Bytes) : Option Output :=
  let size := o.size + piece.length
  if o.limit.any (· < size) then none
  else some { o with pieces := o.pieces.push piece, size := size }

/-- The output after a piece, which is lost if it is too large. -/
def write (o : Output) (piece : Bytes) : Output := (o.write? piece).getD o

/-- All that was written. -/
def text (o : Output) : Bytes := o.pieces.toList.flatten

end Output

/-! ## Ends -/

/-- Why a run ended early. -/
inductive RunError where
  | lineTooLong
  | cancelled
  | unreadable (error : FileError)
  | sourceNotFound (path : Bytes)
  | dumpRefused
  | documentRefused
  | exportFailed (path : Bytes) (error : Workspace.DatabaseError)
  deriving DecidableEq

namespace RunError

/-- The complaint about a program that cannot be opened. -/
def notFound (path : Bytes) : Diagnostic := ⟨.source, .mark 0 0, [path]⟩

/-- The error in words. -/
def message : RunError → Bytes
  | lineTooLong => "bufio.Scanner: token too long"
  | cancelled => "context canceled"
  | unreadable e => e.message
  | sourceNotFound path => (notFound path).text
  | dumpRefused => "disk full"
  | documentRefused => "yaml: write error: disk full"
  | exportFailed path e => utf8 "export " ++ path ++ utf8 ": " ++ e.message

end RunError

/-! ## Sessions -/

/-- The state of a session. -/
structure Session where
  options : Options
  runId : Bytes
  source : Bytes
  store : Store
  inStep : store.InStep
  errors : Nat
  output : Output
  log : Array Bytes
  workspace : Workspace

namespace Session

/-- A session that has run nothing. -/
def start (options : Options) (runId : Bytes) (limit : Option Nat) (workspace : Workspace) :
    Session :=
  ⟨options, runId, [], .empty, .empty, 0, .empty limit, #[], workspace⟩

/-- The variables of the session. -/
def table (s : Session) : Table := s.inStep.table

/-- The session with another store. -/
def keep (s : Session) (σ : Store) (h : σ.InStep) : Session := { s with store := σ, inStep := h }

/-- Writes a piece to the output. -/
def write (s : Session) (piece : Bytes) : Session := { s with output := s.output.write piece }

/-- Writes a line to the output. -/
def writeLine (s : Session) (line : Bytes) : Session := s.write (line ++ utf8 "\n")

/-- Adds a note to the log, if there is one; every note ends with a line break. -/
def note (s : Session) (message : Bytes) : Session :=
  if s.options.debug then
    let ending := if message.getLast? == some 0x0a then [] else utf8 "\n"
    { s with log := s.log.push (message ++ ending) }
  else s

/-- Adds a note about the run. -/
def noteRun (s : Session) (message : Bytes) : Session :=
  s.note (utf8 "run " ++ s.runId ++ utf8 ": " ++ message)

/-- A complaint in red, if complaints are coloured. -/
def paint (s : Session) (text : Bytes) : Bytes :=
  if s.options.color then utf8 "\x1b[31m" ++ text ++ utf8 "\x1b[39m" else text

end Session

end LineCalc
