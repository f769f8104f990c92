import LineCalc.Text.Bytes
/-!
# White space

The white space that is trimmed off lines and removed from print expressions is that of Unicode:
tab to carriage return, space, and the separators U+0085, U+00A0, U+1680, U+2000 to U+200A,
U+2028, U+2029, U+202F, U+205F and U+3000 in their UTF-8 encoding.
-/
namespace LineCalc.Text

/-- The white space of one byte. -/
def isAsciiBlank (b : UInt8) : Bool := (0x09 ≤ b && b ≤ 0x0d) || b == 0x20

/-- The last byte of a white-space character whose first two bytes are `a` and `b`. -/
def isWideBlank (a b c : UInt8) : Bool :=
  (a == 0xe1 && b == 0x9a && c == 0x80) ||
  (a == 0xe2 && b == 0x80 && ((0x80 ≤ c && c ≤ 0x8a) || c == 0xa8 || c == 0xa9 || c == 0xaf)) ||
  (a == 0xe2 && b == 0x81 && c == 0x9f) ||
  (a == 0xe3 && b == 0x80 && c == 0x80)

/-- The white-space characters of two bytes. -/
def isPairBlank (a b : UInt8) : Bool := a == 0xc2 && (b == 0x85 || b == 0xa0)

/-- The text without its white space at the front. -/
def dropBlanks : Bytes → Bytes
  | [] => []
  | a :: r =>
    if isAsciiBlank a then dropBlanks r
    else match r with
      | b :: c :: r' =>
        if isPairBlank a b then dropBlanks (c :: r')
        else if isWideBlank a b c then dropBlanks r'
        else a :: r
      | [b] => if isPairBlank a b then [] else a :: r
      | [] => a :: r
termination_by s => s.length

/-- The reverse of `dropBlanks`: the argument is a reversed text, and white space is taken off
its front, which is the end of the text. -/
def dropBlanksBack : Bytes → Bytes
  | [] => []
  | a :: r =>
    if isAsciiBlank a then dropBlanksBack r
    else match r with
      | b :: c :: r' =>
        if isPairBlank b a then dropBlanksBack (c :: r')
        else if isWideBlank c b a then dropBlanksBack r'
        else a :: r
      | [b] => if isPairBlank b a then [] else a :: r
      | [] => a :: r
termination_by s => s.length

/-- The text without white space at either end. -/
def trim (s : Bytes) : Bytes := (dropBlanksBack (dropBlanks s).reverse).reverse

/-- The text without any white space. -/
def squeeze : Bytes → Bytes
  | [] => []
  | a :: r =>
    if isAsciiBlank a then squeeze r
    else match r with
      | b :: c :: r' =>
        if isPairBlank a b then squeeze (c :: r')
        else if isWideBlank a b c then squeeze r'
        else a :: squeeze (b :: c :: r')
      | [b] => if isPairBlank a b then [] else a :: squeeze [b]
      | [] => [a]
termination_by s => s.length

end LineCalc.Text
