import LineCalc.Text.Bytes
/-!
# Base 64

Bytes written with sixty-four digits: four digits for three bytes, and equals signs in the last
group for the bytes that are missing there.
-/
namespace LineCalc.Text

/-! ## Reading -/

/-- The value of a digit in base 64. -/
def sextet? (b : UInt8) : Option Nat :=
  if 0x41 ≤ b && b ≤ 0x5a then some (b.toNat - 0x41)
  else if 0x61 ≤ b && b ≤ 0x7a then some (b.toNat - 0x61 + 26)
  else if Bytes.isDigit b then some (b.toNat - 0x30 + 52)
  else if b == 0x2b then some 62
  else if b == 0x2f then some 63
  else none

/-- The first `n` of the three bytes that four digits write. -/
def octets (n : Nat) (a b c d : Nat) : Bytes :=
  let v := ((a * 64 + b) * 64 + c) * 64 + d
  ([v / 65536, v / 256, v].take n).map UInt8.ofNat

/-- The bytes that groups of four digits write; equals signs fill up the last group. -/
def ofSextets? : Bytes → Option Bytes
  | [] => some []
  | [a, b, 0x3d, 0x3d] => do return octets 1 (← sextet? a) (← sextet? b) 0 0
  | [a, b, c, 0x3d] => do return octets 2 (← sextet? a) (← sextet? b) (← sextet? c) 0
  | a :: b :: c :: d :: r => do
    let bytes := octets 3 (← sextet? a) (← sextet? b) (← sextet? c) (← sextet? d)
    return bytes ++ (← ofSextets? r)
  | _ => none

/-- The bytes that a text in base 64 writes; its line breaks mean nothing. -/
def ofBase64? (s : Bytes) : Option Bytes := ofSextets? (s.filter fun b => b != 0x0a && b != 0x0d)

/-! ## Writing -/

/-- The digit with the given value. -/
def sextetDigit (n : Nat) : UInt8 :=
  UInt8.ofNat <|
    if n < 26 then n + 0x41
    else if n < 52 then n - 26 + 0x61
    else if n < 62 then n - 52 + 0x30
    else if n = 62 then 0x2b
    else 0x2f

/-- The four digits of the number that three bytes make. -/
def sextets (v : Nat) : Bytes :=
  [v / 262144, v / 4096 % 64, v / 64 % 64, v % 64].map sextetDigit

/-- Bytes in base 64. -/
def base64 : Bytes → Bytes
  | [] => []
  | [a] => (sextets (a.toNat * 65536)).take 2 ++ utf8 "=="
  | [a, b] => (sextets (a.toNat * 65536 + b.toNat * 256)).take 3 ++ utf8 "="
  | a :: b :: c :: r => sextets (a.toNat * 65536 + b.toNat * 256 + c.toNat) ++ base64 r

end LineCalc.Text
