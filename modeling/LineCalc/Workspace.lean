import LineCalc.Path
import LineCalc.Snapshot.Archive
import LineCalc.Snapshot.Transaction
/-!
# Files of a run

The files and directories that a run can see, and which of the files are databases.  A path is
followed part by part, from the working directory or, if it starts with a separator, from the root.
-/
namespace LineCalc

/-- What a file holds: a text, or a database with the rows of its table. -/
inductive Content where
  | text (bytes : Bytes)
  | database (rows : List Row)

namespace Content

/-- The content of a file with the given bytes. -/
def ofBytes (b : Bytes) : Content :=
  match Archive.rows? b with
  | some rows => database rows
  | none => text b

/-- The bytes of a file. -/
def bytes : Content → Bytes
  | text b => b
  | database rows => Archive.text rows

end Content

/-- The files and directories and the working directory, each known by the parts of its path from
the root on. -/
structure Workspace where
  files : List (List Bytes × Content)
  directories : List (List Bytes)
  here : List Bytes

/-- What a path leads to. -/
inductive Place where
  | directory (parts : List Bytes)
  | file (parts : List Bytes) (content : Content)
  /-- A name that is free in a directory. -/
  | vacant (parts : List Bytes)
  /-- A directory on the way does not exist. -/
  | missing
  /-- A file stands where the path needs a directory. -/
  | blocked
  /-- The path, or a part of it, is longer than paths and names can be. -/
  | tooLong
  /-- The path has a zero byte, which no name has. -/
  | unnameable

/-- Why a file cannot be read. -/
inductive FileError where
  | notFound (path : Bytes)
  | notDirectory (path : Bytes)
  | isDirectory (path : Bytes)
  | nameTooLong (path : Bytes)
  | unnameable (path : Bytes)
  deriving DecidableEq

/-- The error in words. -/
def FileError.message : FileError → Bytes
  | notFound p => utf8 "open " ++ p ++ utf8 ": no such file or directory"
  | notDirectory p => utf8 "open " ++ p ++ utf8 ": not a directory"
  | isDirectory p => utf8 "read " ++ p ++ utf8 ": is a directory"
  | nameTooLong p => utf8 "open " ++ p ++ utf8 ": file name too long"
  | unnameable p => utf8 "open " ++ p ++ utf8 ": invalid argument"

namespace Workspace

/-- The workspace without files. -/
def empty (here : List Bytes) : Workspace := ⟨[], [], here⟩

/-! ## Adding files -/

/-- Where a path starts. -/
def origin (w : Workspace) (path : Bytes) : List Bytes :=
  if Path.isAbsolute path then [] else w.here

/-- The parts of a place after one more part of a path. -/
def enter (parts : List Bytes) (part : Bytes) : List Bytes :=
  if part.isEmpty || part == utf8 "." then parts
  else if part == utf8 ".." then parts.dropLast
  else parts ++ [part]

/-- The directories on the way along the parts of a path, and the parts of its end. -/
def walk (parts : List Bytes) : List Bytes → List (List Bytes) × List Bytes
  | [] => ([], parts)
  | p :: ps =>
    let (passed, stop) := walk (enter parts p) ps
    (parts :: passed, stop)

/-- The workspace with one more file; the directories on its path come with it. -/
def addFile (w : Workspace) (path : Bytes) (content : Content) : Workspace :=
  let (passed, parts) := walk (w.origin path) (Bytes.splitAt Path.separator path)
  { w with files := w.files ++ [(parts, content)], directories := w.directories ++ passed }

/-- The workspace with one more directory. -/
def addDirectory (w : Workspace) (path : Bytes) : Workspace :=
  let (passed, parts) := walk (w.origin path) (Bytes.splitAt Path.separator path)
  { w with directories := w.directories ++ passed ++ [parts] }

/-! ## Following paths -/

/-- Whether there is a directory with these parts. -/
def isDirectory (w : Workspace) (parts : List Bytes) : Bool :=
  parts.isPrefixOf w.here || w.directories.any parts.isPrefixOf

/-- The place with the given parts, the last of which is a name in an existing directory. -/
def placeAt (w : Workspace) (parts : List Bytes) : Place :=
  if w.isDirectory parts then .directory parts
  else match w.files.lookup parts with
    | some c => .file parts c
    | none => .vacant parts

/-- The length of the longest names. -/
def nameLimit : Nat := 255

/-- The length of the longest paths. -/
def pathLimit : Nat := 4095

/-- The place that one more part of a path leads to. -/
def follow (w : Workspace) (place : Place) (part : Bytes) : Place :=
  match place with
  | .directory parts => if nameLimit < part.length then .tooLong else w.placeAt (enter parts part)
  | .file _ _ => .blocked
  | .vacant _ => .missing
  | p => p

/-- The place that a path leads to; the empty path leads nowhere. -/
def locate (w : Workspace) (path : Bytes) : Place :=
  if path.contains 0x00 then .unnameable
  else if path.isEmpty then .missing
  else if pathLimit < path.length then .tooLong
  else (Bytes.splitAt Path.separator path).foldl w.follow (.directory (w.origin path))

/-! ## Reading -/

/-- Opens what a path leads to. -/
def openFile (w : Workspace) (path : Bytes) : Except FileError Place :=
  match w.locate path with
  | .vacant _ | .missing => .error (.notFound path)
  | .blocked => .error (.notDirectory path)
  | .tooLong => .error (.nameTooLong path)
  | .unnameable => .error (.unnameable path)
  | p => .ok p

/-- The text of what was opened by a path. -/
def read (path : Bytes) : Place → Except FileError Bytes
  | .file _ c => .ok c.bytes
  | _ => .error (.isDirectory path)

/-- The text of the file that a path leads to. -/
def load (w : Workspace) (path : Bytes) : Except FileError Bytes := do
  let place ← w.openFile path
  read path place

/-! ## Databases -/

/-- Why a snapshot cannot be put into a database. -/
inductive DatabaseError where
  | cancelled
  | cannotOpen
  | notDatabase
  | taken (name : Bytes)
  deriving DecidableEq

/-- The error in words. -/
def DatabaseError.message : DatabaseError → Bytes
  | cancelled => "create table: context canceled"
  | cannotOpen => "create table: unable to open database file: out of memory (14)"
  | notDatabase => "create table: file is not a database (26)"
  | taken name => utf8 "insert " ++ name ++
    utf8 ": constraint failed: UNIQUE constraint failed: variables.run_id, variables.seq (1555)"

/-- The workspace in which a file holds a database with the given rows. -/
def putRows (w : Workspace) (parts : List Bytes) (rows : List Row) : Workspace :=
  { w with files := w.files.filter (·.1 != parts) ++ [(parts, .database rows)] }

/-- The rows that a place holds before anything is added: none if nothing was written there. -/
def rowsAt : Place → Except DatabaseError (List Bytes × List Row)
  | .file parts (.database rows) => .ok (parts, rows)
  | .file parts (.text []) => .ok (parts, [])
  | .file _ (.text _) => .error .notDatabase
  | .vacant parts => .ok (parts, [])
  | _ => .error .cannotOpen

/-- The path of the database that a name stands for: a question mark after the first character
starts options that are no part of it, and a zero byte ends it. -/
def databasePath (name : Bytes) : Bytes :=
  (name.take 1 ++ (name.drop 1).takeWhile (· != 0x3f)).takeWhile (· != 0x00)

/-- Whether a path names a database that is gone once it is closed. -/
def isPassing (path : Bytes) : Bool := path.isEmpty || path == utf8 ":memory:"

/-- Writes the rows of a snapshot to a database, which is made if it is not there.  The database
keeps what the transaction has committed. -/
def store (w : Workspace) (name : Bytes) (s : Snapshot) (isCancelled : Bool) :
    Workspace × Option DatabaseError :=
  let path := databasePath name
  if isCancelled then (w, some .cancelled)
  else if isPassing path then (w, none)
  else match rowsAt (w.locate (Path.clean path)) with
    | .error e => (w, some e)
    | .ok (parts, rows) =>
      match (Transaction.write s).on (.start rows) with
      | (.ok (), t) => (w.putRows parts t.committed, none)
      | (.error r, t) => (w.putRows parts t.committed, some (.taken r.name))

/-- The rows of the database that a path leads to. -/
def rows? (w : Workspace) (path : Bytes) : Option (List Row) :=
  match w.locate path with
  | .file _ (.database rows) => some rows
  | _ => none

end Workspace

end LineCalc
