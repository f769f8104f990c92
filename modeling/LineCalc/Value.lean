import LineCalc.Double.Arithmetic
import LineCalc.Decimal.Text
import LineCalc.Decimal.Reading
import LineCalc.Text.Quoted
/-!
# Values

A variable holds a 64-bit integer or a double, and its kind never changes.
-/
namespace LineCalc

/-- The two kinds of variables. -/
inductive Kind where
  | int
  | double
  deriving DecidableEq, Repr

/-- The word that declares a variable of the kind. -/
def Kind.text : Kind → Bytes
  | int => "int"
  | double => "double"

/-- The kind that a type word declares. -/
def Kind.ofText? (word : Bytes) : Option Kind :=
  if word = utf8 "int" then some int else if word = utf8 "double" then some double else none

/-- The value of a variable. -/
inductive Value where
  | int (i : Int64)
  | double (d : Double)
  deriving DecidableEq

namespace Value

/-- The kind of a value. -/
def kind : Value → Kind
  | int _ => .int
  | double _ => .double

/-- The value of a variable declared without one. -/
def zero : Kind → Value
  | .int => int 0
  | .double => double .zero

/-- The value as a double; a large integer is rounded. -/
def toDouble : Value → Double
  | int i => .ofInt i.toInt
  | double d => d

/-- The text of a value. -/
def toText : Value → Bytes
  | int i => Bytes.ofInt i.toInt
  | double d => d.toText

/-- The value of a given kind that a literal writes. -/
def read? : Kind → Bytes → Option Value
  | .int, s => (readInt? s).map int
  | .double, s => (readDouble? s).map double

/-- The complaint about a literal that writes no value of the kind. -/
def invalidLiteral (k : Kind) (s : Bytes) : Bytes :=
  utf8 "invalid literal: " ++ k.text ++ utf8 " literal " ++ Text.quote s

end Value

end LineCalc
