import LineCalc.Text.Utf8
import LineCalc.Text.Printable
/-!
# Quoted text

A text between double quotes in which every byte can be told: printable characters stand as they
are, the quote and the backslash are escaped, and everything else is shown by its code.
-/
namespace LineCalc.Text

/-- The letter that names a control character in an escape, if it has one. -/
def escapeLetter? (c : Char) : Option UInt8 :=
  match c.toNat with
  | 0x07 => some 0x61
  | 0x08 => some 0x62
  | 0x0c => some 0x66
  | 0x0a => some 0x6e
  | 0x0d => some 0x72
  | 0x09 => some 0x74
  | 0x0b => some 0x76
  | _ => none

/-- A character inside quotes. -/
def quoteChar (c : Char) : Bytes :=
  if c = '"' || c = '\\' then 0x5c :: String.utf8EncodeChar c
  else if isPrintable c then String.utf8EncodeChar c
  else match escapeLetter? c with
    | some b => [0x5c, b]
    | none =>
      if c.toNat < 0x80 then 0x5c :: 0x78 :: Bytes.hex 2 c.toNat
      else if c.toNat < 0x10000 then 0x5c :: 0x75 :: Bytes.hex 4 c.toNat
      else 0x5c :: 0x55 :: Bytes.hex 8 c.toNat

/-- A unit of a text inside quotes; a byte of no character is shown in hexadecimal. -/
def quoteGlyph : Glyph → Bytes
  | .char c => quoteChar c
  | .stray b => 0x5c :: 0x78 :: Bytes.hex 2 b.toNat

/-- The text between double quotes. -/
def quote (s : Bytes) : Bytes := 0x22 :: (glyphs s).flatMap quoteGlyph ++ [0x22]

end LineCalc.Text
