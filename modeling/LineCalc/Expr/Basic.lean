import LineCalc.Token.Basic
/-!
# Expressions

Trees over number literals and variables with signs and binary operators; every node keeps the
tokens it was read from.
-/
namespace LineCalc

/-- A number as written: its digits, and the sign directly in front of them if one is part of the
literal. -/
structure Literal where
  sign : Option Token
  number : Token
  deriving DecidableEq, Repr

namespace Literal

/-- The first token of a literal. -/
def token (l : Literal) : Token := l.sign.getD l.number

/-- The text of a literal, sign included. -/
def text (l : Literal) : Bytes :=
  match l.sign with
  | some s => s.lexeme ++ l.number.lexeme
  | none => l.number.lexeme

/-- Whether the literal is written with a point. -/
def isFractional (l : Literal) : Bool := l.text.any (· == 0x2e)

end Literal

/-- An expression. -/
inductive Expr where
  | number (literal : Literal)
  | ident (name : Token)
  | unary (op : Token) (operand : Expr)
  | binary (op : Token) (left right : Expr)
  deriving DecidableEq, Repr

namespace Expr

/-- The token that stands for an expression: its operator, its name or the start of its
literal. -/
def token : Expr → Token
  | number l => l.token
  | ident t => t
  | unary t _ => t
  | binary t _ _ => t

/-- The tokens of an expression from left to right. -/
def tokens : Expr → List Token
  | number l => l.sign.toList ++ [l.number]
  | ident t => [t]
  | unary t e => t :: tokens e
  | binary t l r => tokens l ++ t :: tokens r

/-! ## Printing -/

/-- The expression as code: a sign touches its operand, a binary operator stands between
spaces. -/
def code : Expr → Bytes
  | number l => l.text
  | ident t => t.lexeme
  | unary t e => t.lexeme ++ code e
  | binary t l r => code l ++ utf8 " " ++ t.lexeme ++ utf8 " " ++ code r

/-- A line of a tree: its depth and its text. -/
structure TreeRow where
  depth : Nat
  text : Bytes
  deriving DecidableEq, Repr

/-- A line of a tree, two columns further in for every level. -/
def TreeRow.line (r : TreeRow) : Bytes := List.replicate (2 * r.depth) 0x20 ++ r.text ++ [0x0a]

/-- The lines of the tree of an expression: one for every node, operands below their operator and a
level deeper. -/
def treeRows (depth : Nat) : Expr → List TreeRow
  | number l => [⟨depth, utf8 "NumberLiteral " ++ l.text⟩]
  | ident t => [⟨depth, utf8 "Identifier " ++ t.lexeme⟩]
  | unary t e => ⟨depth, utf8 "PrefixExpression " ++ t.lexeme⟩ :: treeRows (depth + 1) e
  | binary t l r =>
    ⟨depth, utf8 "InfixExpression " ++ t.lexeme⟩ ::
      (treeRows (depth + 1) l ++ treeRows (depth + 1) r)

end Expr

end LineCalc
