import LineCalc.Text.Bytes
/-!
# Tokens

The lexical units of a line, each with the place it was found at.
-/
namespace LineCalc

/-- What a token is.  The scanner never makes an `other`; it is for marks of a place and for trees
built by hand. -/
inductive TokenKind where
  | illegal
  | eof
  | ident
  | number
  | assign
  | plus
  | minus
  | times
  | slash
  | lparen
  | rparen
  | semicolon
  | other (text : Bytes)
  deriving DecidableEq, Repr

namespace TokenKind

/-- The name of a kind: what it is written with, or a word for the classes. -/
def text : TokenKind → Bytes
  | illegal => "ILLEGAL"
  | eof => "EOF"
  | ident => "IDENT"
  | number => "NUMBER"
  | assign => "="
  | plus => "+"
  | minus => "-"
  | times => "*"
  | slash => "/"
  | lparen => "("
  | rparen => ")"
  | semicolon => ";"
  | other t => t

/-- The kinds that the scanner makes. -/
def scanned : List TokenKind :=
  [illegal, eof, ident, number, assign, plus, minus, times, slash, lparen, rparen, semicolon]

/-- The kind of a given name. -/
def ofText (t : Bytes) : TokenKind := (scanned.find? (·.text == t)).getD (other t)

/-- The four arithmetic operators. -/
def isOperator : TokenKind → Bool
  | plus | minus | times | slash => true
  | _ => false

/-- The kinds that stand as an operand of an expression. -/
def isOperand : TokenKind → Bool
  | ident | number => true
  | _ => false

/-- The kind written with one given character, if there is one. -/
def ofByte? (b : UInt8) : Option TokenKind :=
  if b = 0x3d then some assign
  else if b = 0x2b then some plus
  else if b = 0x2d then some minus
  else if b = 0x2a then some times
  else if b = 0x2f then some slash
  else if b = 0x28 then some lparen
  else if b = 0x29 then some rparen
  else if b = 0x3b then some semicolon
  else none

end TokenKind

/-- A lexical unit with its line and its 1-based column, counted in bytes. -/
structure Token where
  kind : TokenKind
  lexeme : Bytes
  line : Int
  column : Nat
  deriving DecidableEq, Repr

/-- A mark of a place where no token stands. -/
def Token.mark (line : Int) (column : Nat) : Token := ⟨.other [], [], line, column⟩

/-- The mark of a whole line. -/
def Token.wholeLine (line : Int) : Token := .mark line 1

end LineCalc
