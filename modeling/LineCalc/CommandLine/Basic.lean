import LineCalc.CommandLine.Flags
import LineCalc.Session.Run
import LineCalc.Settings.File
/-!
# The command line

A call runs one program.  Its settings come from a file, the environment and the flags, each
before the next; if one of them is refused, nothing is run.  The exit status is zero if the run
went through, whatever the complaints about its lines.
-/
namespace LineCalc

/-- What a call is made with. -/
structure Call where
  args : List Bytes
  environment : Environment
  workspace : Workspace
  output : OutputKind
  /-- How many bytes the output can take, if that is limited. -/
  limit : Option Nat := none
  /-- The identity of the run, unless it is to be a fixed one. -/
  runId : Bytes
  isCancelled : Bool

/-- What a call leaves behind. -/
structure Outcome where
  exitStatus : Nat
  output : Bytes
  errors : Bytes
  workspace : Workspace

/-- Why a call has no settings. -/
inductive SetupError where
  | unreadable (path : Bytes) (error : FileError)
  | file (fault : Settings.FileFault)
  | layer (error : SettingsError)

/-- The error in words. -/
def SetupError.message : SetupError → Bytes
  | unreadable path e => utf8 "reading config " ++ path ++ utf8 ": " ++ e.message
  | file f => f.message
  | layer e => e.message

namespace Call

/-- The settings file that is read when none is named. -/
def defaultConfig : Bytes := "numlang.yaml"

/-- The identity of runs whose output is compared. -/
def fixedRunId : Bytes := "00000000-0000-0000-0000-000000000000"

/-! ## Settings -/

/-- The settings of a file. -/
def readSettings (w : Workspace) (path : Bytes) : Except SetupError Settings :=
  match w.load path with
  | .error e => .error (.unreadable path e)
  | .ok data => (Settings.ofFile data path).mapError .file

/-- The settings of the named file, or of the default one if it is there. -/
def baseSettings (w : Workspace) (config : Bytes) : Except SetupError Settings :=
  if config.isEmpty then
    match readSettings w defaultConfig with
    | .error (.unreadable _ (.notFound _)) => .ok .default
    | r => r
  else readSettings w config

/-- The settings of a call: the file, then the environment, then the flags. -/
def settings (c : Call) (a : Arguments) : Except SetupError Settings := do
  let s ← baseSettings c.workspace a.config
  let s ← (s.apply (.ofEnvironment c.environment) "environment").mapError .layer
  (s.apply a.layer "command line").mapError .layer

/-! ## Runs -/

/-- The options of a run. -/
def options (c : Call) (a : Arguments) (s : Settings) : Options where
  lenient := s.lenient
  dump := .ofText s.dump
  color := usesColor s.color c.output c.environment && !c.environment.isTestMode
  exportDb := s.exportDb
  debug := a.debug

/-- The session that a call starts. -/
def session (c : Call) (a : Arguments) (s : Settings) : Session :=
  .start (c.options a s) (if c.environment.isTestMode then fixedRunId else c.runId) c.limit
    c.workspace

/-- The program that a call runs: the argument that is no flag, or the one of the settings. -/
def program (a : Arguments) (s : Settings) : Bytes := a.rest.head?.getD s.input

/-- What a run that ended early writes to the error stream; a missing program was already reported
on the output. -/
def report : RunError → Bytes
  | .sourceNotFound _ => []
  | e => utf8 "Error: " ++ e.message ++ utf8 "\n"

/-- The exit status of a run. -/
def statusOf : Option RunError → Nat
  | none => 0
  | some (.sourceNotFound path) => (RunError.notFound path).exitStatus
  | some _ => 1

/-- Runs the program. -/
def execute (c : Call) (a : Arguments) (s : Settings) : Outcome :=
  let (t, e) := (c.session a s).runFile (program a s) c.isCancelled
  ⟨statusOf e, t.output.text, t.log.toList.flatten ++ (e.map report).getD [], t.workspace⟩

/-- A call that runs nothing. -/
def refuse (c : Call) (status : Nat) (errors : Bytes) : Outcome := ⟨status, [], errors, c.workspace⟩

/-- The complaint about settings. -/
def invalidSettings (e : SetupError) : Diagnostic := ⟨.settings, .mark 0 0, [e.message]⟩

/-- Answers a call. -/
def run (c : Call) : Outcome :=
  match Arguments.ofList c.args with
  | .error .help => c.refuse 0 usage
  | .error e => c.refuse 2 (e.message ++ utf8 "\n" ++ usage)
  | .ok a =>
    if 1 < a.rest.length then c.refuse 2 usage
    else match c.settings a with
      | .error e =>
        let d := invalidSettings e
        c.refuse d.exitStatus (utf8 "Error: " ++ d.message ++ utf8 "\n")
      | .ok s => c.execute a s

end Call

end LineCalc
