import LineCalc.Token.Basic
import LineCalc.Text.Quoted
/-!
# Why a line does not parse

The first token that does not fit, or the rule that the tokens break.  The end of the line is no
token and is given by `none`.
-/
namespace LineCalc

/-- Why the tokens of a line make no statement. -/
inductive Failure where
  | expectedType
  | expected (kind : TokenKind) (found : Option Token)
  | reserved (name : Bytes)
  | detachedSign
  | emptyExpression
  | tooDeep
  | unexpected (found : Option Token)
  deriving DecidableEq, Repr

namespace Failure

/-- What was expected. -/
def describeKind : TokenKind → Bytes
  | .eof => "end of line"
  | .ident => "identifier"
  | .number => "number"
  | k => utf8 "'" ++ k.text ++ utf8 "'"

/-- What was found instead. -/
def describeFound : Option Token → Bytes
  | none => "end of line"
  | some t =>
    if t.kind = .illegal then utf8 "unexpected character " ++ Text.quote t.lexeme
    else Text.quote t.lexeme

/-- The failure in words. -/
def message : Failure → Bytes
  | expectedType => "expected int or double"
  | expected k t => utf8 "expected " ++ describeKind k ++ utf8 ", got " ++ describeFound t
  | reserved name => Text.quote name ++ utf8 " is a reserved word"
  | detachedSign => "sign must be written directly before the number"
  | emptyExpression => "empty expression"
  | tooDeep => "expression too complex: recursion depth limit exceeded"
  | unexpected none => "unexpected end of expression"
  | unexpected (some t) =>
    if t.kind = .illegal then utf8 "unexpected character " ++ Text.quote t.lexeme
    else utf8 "unexpected " ++ Text.quote t.lexeme

end Failure

end LineCalc
