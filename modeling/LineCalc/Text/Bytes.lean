/-!
# Byte texts

Source lines, names and messages are lists of bytes: a program may hold any byte, and a message
that quotes it must hold the same one.  String literals stand for their UTF-8 bytes.
-/
namespace LineCalc

/-- A text is a list of bytes; nothing is assumed of its encoding. -/
abbrev Bytes := List UInt8

/-! ## Literals -/

/-- The UTF-8 bytes of a string. -/
def utf8 (s : String) : Bytes := s.toByteArray.data.toList

instance : Coe String Bytes := ⟨utf8⟩

namespace Bytes

/-! ## Character classes -/

/-- The decimal digits. -/
def isDigit (b : UInt8) : Bool := 0x30 ≤ b && b ≤ 0x39

/-- The letters that may start a name: ASCII letters and the underscore. -/
def isLetter (b : UInt8) : Bool :=
  (0x61 ≤ b && b ≤ 0x7a) || (0x41 ≤ b && b ≤ 0x5a) || b == 0x5f

/-- The characters of a name after its first. -/
def isWord (b : UInt8) : Bool := isLetter b || isDigit b

/-- The ASCII lower-case form of a byte. -/
def lower (b : UInt8) : UInt8 := if 0x41 ≤ b && b ≤ 0x5a then b + 0x20 else b

/-! ## Numbers as text -/

/-- The digit that stands for `d < 10`. -/
def digit (d : Nat) : UInt8 := UInt8.ofNat (0x30 + d)

/-- The value of a decimal digit. -/
def digitValue (b : UInt8) : Nat := b.toNat - 0x30

/-- The decimal digits of a number, without leading zeros. -/
def ofNat (n : Nat) : Bytes :=
  if n < 10 then [digit n] else ofNat (n / 10) ++ [digit (n % 10)]
termination_by n

/-- The decimal text of an integer. -/
def ofInt : Int → Bytes
  | .ofNat n => ofNat n
  | .negSucc n => 0x2d :: ofNat (n + 1)

/-- The number that a list of decimal digits writes. -/
def toNat (ds : Bytes) : Nat := ds.foldl (fun n b => 10 * n + digitValue b) 0

/-- One lower-case hexadecimal digit. -/
def hexDigit (d : Nat) : UInt8 := UInt8.ofNat (if d < 10 then 0x30 + d else 0x57 + d)

/-- The last `width` hexadecimal digits of `n`, in lower case. -/
def hex : (width : Nat) → (n : Nat) → Bytes
  | 0, _ => []
  | w + 1, n => hex w (n / 16) ++ [hexDigit (n % 16)]

/-! ## Cutting -/

/-- Whether `part` occurs somewhere in the text. -/
def hasPart (part : Bytes) : Bytes → Bool
  | [] => part.isEmpty
  | b :: r => part.isPrefixOf (b :: r) || hasPart part r

/-- The text split at every `sep`; there is always one part more than separators. -/
def splitAt (sep : UInt8) (s : Bytes) : List Bytes :=
  s.foldr (fun b parts =>
    if b == sep then [] :: parts
    else match parts with
      | [] => [[b]]
      | p :: ps => (b :: p) :: ps) [[]]

end Bytes

end LineCalc
