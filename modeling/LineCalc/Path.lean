import LineCalc.Text.Bytes
/-!
# Paths

Names of files, with `/` between their parts.  These functions look at the text alone: a path need
not name anything.
-/
namespace LineCalc.Path

/-- The character between the parts of a path. -/
def separator : UInt8 := 0x2f

/-- Whether a path starts at the root. -/
def isAbsolute : Bytes → Bool
  | b :: _ => b == separator
  | [] => false

/-- One more part of a path whose earlier parts, last first, are `parts`: `.` and empty parts stay
in place, `..` goes back one part, or above the start if there is none and the path has no root. -/
def step (rooted : Bool) (parts : List Bytes) (part : Bytes) : List Bytes :=
  if part.isEmpty || part == utf8 "." then parts
  else if part == utf8 ".." then
    match parts with
    | p :: ps => if p == utf8 ".." then part :: p :: ps else ps
    | [] => if rooted then [] else [part]
  else part :: parts

/-- The shortest path that names the same place; the path of the working directory is `.`. -/
def clean (path : Bytes) : Bytes :=
  let rooted := isAbsolute path
  let parts := ((Bytes.splitAt separator path).foldl (step rooted) []).reverse
  let body := [separator].intercalate parts
  if rooted then separator :: body
  else if body.isEmpty then utf8 "."
  else body

/-- A path inside a directory. -/
def join (dir path : Bytes) : Bytes := clean (dir ++ separator :: path)

/-- All of a path up to its last separator, made as short as possible. -/
def directory (path : Bytes) : Bytes :=
  clean (path.reverse.dropWhile (· != separator)).reverse

/-- The last part of a path. -/
def lastPart (path : Bytes) : Bytes :=
  if path.isEmpty then utf8 "."
  else
    let body := path.reverse.dropWhile (· == separator)
    if body.isEmpty then [separator]
    else (body.takeWhile (· != separator)).reverse

/-- A path that a file in directory `dir` mentions. -/
def resolve (dir path : Bytes) : Bytes :=
  if path.isEmpty || isAbsolute path || dir == utf8 "." || dir.isEmpty then path
  else join dir path

/-! ## Sources -/

/-- The name of a program that comes from no file. -/
def stream : Bytes := "<stdin>"

/-- The short name of a source: the last part of its path. -/
def displayName (path : Bytes) : Bytes :=
  if path.isEmpty || path == stream then path else lastPart path

/-- The endings of program files. -/
def extensions : List Bytes := [".num", ".txt"]

/-- Whether a path has the ending of a program file. -/
def isProgram (path : Bytes) : Bool := extensions.any (·.isSuffixOf path)

end LineCalc.Path
