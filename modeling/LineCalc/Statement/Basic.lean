import LineCalc.Expr.Basic
import LineCalc.Line.Kind
import LineCalc.Text.Quoted
/-!
# Statements

The three things a line can do, and the two ways to print them: as code in canonical form, and as
a tree.
-/
namespace LineCalc

/-- A statement.  A declaration keeps its type word, a print keeps its line and the text of its
expression. -/
inductive Statement where
  | declaration (type name : Token) (value : Option Literal)
  | assignment (name : Token) (value : Expr)
  | print (keyword : Token) (line body : Bytes) (value : Option Expr)
  deriving DecidableEq, Repr

namespace Statement

/-- The kind of line that holds the statement. -/
def kind : Statement → LineKind
  | declaration .. => .declaration
  | assignment .. => .assignment
  | print .. => .print

/-- The token that stands for a statement: its first one. -/
def token : Statement → Token
  | declaration t _ _ => t
  | assignment n _ => n
  | print k _ _ _ => k

/-- The statement in canonical form. -/
def code : Statement → Bytes
  | declaration t n none => t.lexeme ++ utf8 " " ++ n.lexeme ++ utf8 ";"
  | declaration t n (some v) =>
    t.lexeme ++ utf8 " " ++ n.lexeme ++ utf8 " = " ++ v.text ++ utf8 ";"
  | assignment n v => n.lexeme ++ utf8 " = " ++ v.code ++ utf8 ";"
  | print _ _ _ v => LineKind.printOpening ++ ((v.map Expr.code).getD []) ++ LineKind.printClosing

/-- The lines of the tree of a statement: one for the statement and one for every node below it. -/
def treeRows : Statement → List Expr.TreeRow
  | declaration t n v =>
    ⟨0, utf8 "DeclarationStatement " ++ t.lexeme⟩ :: (Expr.treeRows 1 (.ident n) ++
      ((v.map fun l => Expr.treeRows 1 (.number l)).getD []))
  | assignment n v =>
    ⟨0, "AssignmentStatement"⟩ :: (Expr.treeRows 1 (.ident n) ++ Expr.treeRows 1 v)
  | print _ _ body v =>
    ⟨0, utf8 "PrintStatement " ++ Text.quote body⟩ :: ((v.map (Expr.treeRows 1)).getD [])

/-- The statement as a tree, a line for every node. -/
def tree (s : Statement) : Bytes := s.treeRows.flatMap Expr.TreeRow.line

end Statement

end LineCalc
