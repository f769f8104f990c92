import LineCalc.Text.Bytes
/-!
# UTF-8

A text seen as characters: every well-formed sequence is one character, and each byte that
belongs to none stands alone.
-/
namespace LineCalc.Text

/-- A unit of a text: a character, or a byte that is part of none. -/
inductive Glyph where
  | char (c : Char)
  | stray (b : UInt8)
  deriving DecidableEq, Repr

/-- The bytes of a unit. -/
def Glyph.bytes : Glyph → Bytes
  | .char c => String.utf8EncodeChar c
  | .stray b => [b]

/-- The continuation bytes. -/
def isTail (b : UInt8) : Bool := 0x80 ≤ b && b ≤ 0xbf

/-- The low six bits of a continuation byte. -/
def tailBits (b : UInt8) : Nat := b.toNat - 0x80

/-- The character numbered `n`, if it is at least `least` (so its encoding is the shortest) and
a scalar value. -/
def scalar? (least n : Nat) : Option Char :=
  if least ≤ n ∧ n.isValidChar then some (Char.ofNat n) else none

/-- The first unit of a nonempty text and the bytes after it. -/
def nextGlyph (b : UInt8) (r : Bytes) : Glyph × Bytes :=
  if b < 0x80 then (.char (Char.ofNat b.toNat), r)
  else if 0xc0 ≤ b && b < 0xe0 then
    match r with
    | c :: r' =>
      match if isTail c then scalar? 0x80 ((b.toNat - 0xc0) * 64 + tailBits c) else none with
      | some ch => (.char ch, r')
      | none => (.stray b, r)
    | _ => (.stray b, r)
  else if 0xe0 ≤ b && b < 0xf0 then
    match r with
    | c :: d :: r' =>
      match if isTail c && isTail d then
          scalar? 0x800 (((b.toNat - 0xe0) * 64 + tailBits c) * 64 + tailBits d) else none with
      | some ch => (.char ch, r')
      | none => (.stray b, r)
    | _ => (.stray b, r)
  else if 0xf0 ≤ b && b < 0xf8 then
    match r with
    | c :: d :: e :: r' =>
      match if isTail c && isTail d && isTail e then
          scalar? 0x10000
            ((((b.toNat - 0xf0) * 64 + tailBits c) * 64 + tailBits d) * 64 + tailBits e)
        else none with
      | some ch => (.char ch, r')
      | none => (.stray b, r)
    | _ => (.stray b, r)
  else (.stray b, r)

/-- Reading a unit never grows the rest. -/
theorem nextGlyph_length_le (b : UInt8) (r : Bytes) : (nextGlyph b r).2.length ≤ r.length := by
  unfold nextGlyph
  repeat' split
  all_goals simp <;> omega

/-- The units of a text. -/
def glyphs : Bytes → List Glyph
  | [] => []
  | b :: r => (nextGlyph b r).1 :: glyphs (nextGlyph b r).2
termination_by s => s.length
decreasing_by
  have := nextGlyph_length_le b r
  simp; omega

/-- A text is UTF-8 when none of its bytes stands alone. -/
def isUtf8 (s : Bytes) : Bool :=
  (glyphs s).all fun g => match g with
    | .char _ => true
    | .stray _ => false

end LineCalc.Text
