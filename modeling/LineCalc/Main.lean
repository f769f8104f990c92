import LineCalc.CommandLine.Basic
/-!
# The program

The outer layer of the command line: it reads the environment and the files that a call needs,
answers the call, and writes what the call leaves behind.
-/
namespace LineCalc.Main

/-- The text of a string argument. -/
def textOf (s : String) : Bytes := utf8 s

/-- The string of a text. -/
def stringOf (b : Bytes) : String := (String.fromUTF8? ⟨b.toArray⟩).getD ""

/-- The workspace with what a path leads to, if it leads to anything. -/
def see (w : Workspace) (path : Bytes) : IO Workspace := do
  if path.isEmpty then return w
  try
    let data ← IO.FS.readBinFile (stringOf path)
    return w.addFile path (.ofBytes data.toList)
  catch
    | .inappropriateType .. => return w.addDirectory path
    | _ => return w

/-- The workspace with all that a call needs: its settings file, its program, its database and the
directory of that. -/
def gather (c : Call) : IO Workspace := do
  match Arguments.ofList c.args with
  | .error _ => return c.workspace
  | .ok a =>
    let w ← see c.workspace (if a.config.isEmpty then Call.defaultConfig else a.config)
    match { c with workspace := w }.settings a with
    | .error _ => return w
    | .ok s =>
      let w ← see w (Call.program a s)
      let database := Workspace.databasePath s.exportDb
      let w ← see w (Path.directory database)
      see w database

/-- The variables of the environment that a run looks at. -/
def environment : IO Environment := do
  Environment.names.filterMapM fun name => do
    return (← IO.getEnv (stringOf name)).map fun v => (name, textOf v)

/-- A random identity: sixteen bytes in hexadecimal digits, in five groups, with the marks of a
random identifier. -/
def randomId : IO Bytes := do
  let b := (← IO.getRandomBytes 16).toList
  let marked := b.zipIdx.map fun (x, i) =>
    if i = 6 then x % 16 + 0x40 else if i = 8 then x % 64 + 0x80 else x
  let digits := Archive.hexText marked
  let group (start width : Nat) : Bytes := (digits.drop start).take width
  return (utf8 "-").intercalate [group 0 8, group 8 4, group 12 4, group 16 4, group 20 12]

/-- The call that is made with the given arguments. -/
def call (args : List String) : IO Call := do
  let out ← IO.getStdout
  let directory := textOf (toString (← IO.currentDir))
  let c : Call :=
    { args := args.map textOf
      environment := ← environment
      workspace := .empty ((Bytes.splitAt Path.separator directory).filter (!·.isEmpty))
      output := if ← out.isTty then .terminal else .file
      runId := ← randomId
      isCancelled := false }
  return { c with workspace := ← gather c }

/-- Writes the database of a call, if it has one. -/
def save (c : Call) (o : Outcome) : IO Unit := do
  match (Arguments.ofList c.args).toOption.bind fun a => (c.settings a).toOption with
  | none => return
  | some s =>
    let database := Workspace.databasePath s.exportDb
    match o.workspace.rows? database with
    | none => return
    | some rows => IO.FS.writeBinFile (stringOf database) ⟨(Archive.text rows).toArray⟩

end LineCalc.Main

/-- Answers a call with the given arguments. -/
def main (args : List String) : IO UInt32 := do
  let c ← LineCalc.Main.call args
  let o := c.run
  (← IO.getStdout).write ⟨o.output.toArray⟩
  (← IO.getStderr).write ⟨o.errors.toArray⟩
  LineCalc.Main.save c o
  return UInt32.ofNat o.exitStatus
