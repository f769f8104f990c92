import LineCalc.Token.Basic
import LineCalc.Text.Quoted
/-!
# Diagnostics

Every complaint has a code, which fixes its family, its wording and whether it stops a run, the
texts that its wording takes, and a place.
-/
namespace LineCalc

/-- The codes of complaints. -/
inductive Code where
  /-- A declaration does not match its grammar. -/
  | declaration
  /-- An assignment does not match its grammar. -/
  | assignment
  /-- A print line is not of the form `print(`...`);`. -/
  | printForm
  /-- The expression of a print line does not parse. -/
  | expression
  /-- A variable is not declared. -/
  | undeclared
  /-- A literal is no value of the kind it is used at. -/
  | literal
  /-- The kinds of a variable and its value differ. -/
  | mismatch
  /-- A result is no number. -/
  | arithmetic
  /-- The program cannot be opened. -/
  | source
  /-- The settings are not valid. -/
  | settings
  /-- A code outside the catalogue. -/
  | other (text : Bytes)
  deriving DecidableEq, Repr

namespace Code

/-- The codes of the catalogue. -/
def catalogue : List Code :=
  [declaration, assignment, printForm, expression, undeclared, literal, mismatch, arithmetic,
    source, settings]

/-- A code as it is written. -/
def text : Code → Bytes
  | declaration => "S001"
  | assignment => "S002"
  | printForm => "S003"
  | expression => "S004"
  | undeclared => "U001"
  | literal => "N001"
  | mismatch => "T001"
  | arithmetic => "M001"
  | source => "F001"
  | settings => "C001"
  | other t => t

/-- The code written as the given text. -/
def ofText (t : Bytes) : Code := (catalogue.find? (·.text == t)).getD (other t)

/-- The family of a code. -/
def family : Code → Bytes
  | declaration | assignment | printForm | expression => "SyntaxError"
  | undeclared => "UndeclaredVariableError"
  | literal => "ParseError"
  | mismatch => "TypeMismatchError"
  | arithmetic => "ArithmeticError"
  | source => "SourceNotFoundError"
  | settings => "ConfigError"
  | other _ => "Error"

/-- Whether a complaint with this code stops the run. -/
def isFatal : Code → Bool
  | source | settings => true
  | _ => false

/-- A part of a wording: fixed words, or the place of a text, plain or in quotes.  A code outside
the catalogue is worded by its text alone. -/
inductive Piece where
  | words (text : Bytes)
  | plain
  | quoted
  | alone

/-- The wording of a code. -/
def wording : Code → List Piece
  | declaration => [.words "syntax error in declaration: ", .plain]
  | assignment => [.words "syntax error in assignment: ", .plain]
  | printForm => [.words "syntax error in print statement: ", .plain]
  | expression => [.words "syntax error in expression ", .quoted, .words ": ", .plain]
  | undeclared => [.words "variable not declared: ", .plain]
  | literal => [.words "invalid ", .plain, .words " literal: ", .plain]
  | mismatch => [.words "type mismatch: ", .plain]
  | arithmetic => [.words "arithmetic error: ", .plain]
  | source => [.words "file not found: ", .plain]
  | settings => [.words "invalid configuration: ", .plain]
  | other _ => [.alone]

/-- A wording with texts in its places.  A missing or a superfluous text shows as a fault in the
message. -/
def fill : List Piece → List Bytes → Bytes
  | [], [] => []
  | [], args =>
    utf8 "%!(EXTRA " ++ (utf8 ", ").intercalate (args.map (utf8 "string=" ++ ·)) ++ utf8 ")"
  | .words w :: ps, args => w ++ fill ps args
  | .plain :: ps, a :: args => a ++ fill ps args
  | .plain :: ps, [] => utf8 "%!s(MISSING)" ++ fill ps []
  | .quoted :: ps, a :: args => Text.quote a ++ fill ps args
  | .quoted :: ps, [] => utf8 "%!q(MISSING)" ++ fill ps []
  | .alone :: ps, a :: args => a ++ fill ps args
  | .alone :: ps, [] => utf8 "%!v(MISSING)" ++ fill ps []

end Code

/-- A complaint about a place. -/
structure Diagnostic where
  code : Code
  token : Token
  args : List Bytes
  deriving DecidableEq, Repr

namespace Diagnostic

/-- The complaint in words. -/
def message (d : Diagnostic) : Bytes := Code.fill d.code.wording d.args

/-- The complaint with its line, if it has one, and its code. -/
def text (d : Diagnostic) : Bytes :=
  (if 0 < d.token.line then utf8 "line " ++ Bytes.ofInt d.token.line ++ utf8 ": " else []) ++
    utf8 "error [" ++ d.code.text ++ utf8 "]: " ++ d.message

/-- The exit status of a run that ends with the complaint. -/
def exitStatus (d : Diagnostic) : Nat := if d.code = .settings then 2 else 1

end Diagnostic

end LineCalc
