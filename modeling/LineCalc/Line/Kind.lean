import LineCalc.Text.Bytes
import LineCalc.Text.Blank
/-!
# Kinds of lines

The start of a line alone decides what it is: the word `int` or `double` makes a declaration,
`print(` makes a print line, and all else is an assignment.
-/
namespace LineCalc

/-- The words of the language that cannot be declared. -/
def isReserved (name : Bytes) : Bool :=
  name == utf8 "int" || name == utf8 "double" || name == utf8 "print"

/-- What a line is taken for. -/
inductive LineKind where
  | declaration
  | assignment
  | print
  deriving DecidableEq, Repr

namespace LineKind

/-- The name of a kind. -/
def text : LineKind → Bytes
  | declaration => "declaration"
  | assignment => "assignment"
  | print => "print"

/-- Whether the line starts with the whole word `word`. -/
def startsWithWord (word line : Bytes) : Bool :=
  match word.isPrefixOf? line with
  | none => false
  | some [] => true
  | some (b :: _) => !Bytes.isWord b

/-- What precedes the expression of a print line. -/
def printOpening : Bytes := "print("

/-- What follows the expression of a print line. -/
def printClosing : Bytes := ");"

/-- The kind of a line. -/
def ofLine (line : Bytes) : LineKind :=
  if startsWithWord "int" line || startsWithWord "double" line then declaration
  else if printOpening.isPrefixOf line then print
  else assignment

/-- The expression of a print line, without its white space; `none` if the line does not have the
form `print(`...`);`. -/
def printBody? (line : Bytes) : Option Bytes :=
  ((printOpening.isPrefixOf? line).bind (printClosing.isSuffixOf? ·)).map Text.squeeze

end LineKind

end LineCalc
