import LineCalc.Decimal.Shortest
import LineCalc.Text.Bytes
/-!
# Doubles as text

A double is written with its shortest digits and always with a point: positionally from
`10 ^ -3` up to `10 ^ 7`, and otherwise as a mantissa with one leading digit, `E` and an exponent
without plus sign or leading zeros.
-/
namespace LineCalc

namespace Decimal

/-- Positional text: the digits with the point where it belongs and at least one digit on either
side of it. -/
def positional (d : Decimal) : Bytes :=
  let ds := Bytes.ofNat d.coefficient
  if 0 ≤ d.exponent then ds ++ List.replicate d.exponent.toNat 0x30 ++ utf8 ".0"
  else
    let places := (-d.exponent).toNat
    if places < ds.length then
      ds.take (ds.length - places) ++ utf8 "." ++ ds.drop (ds.length - places)
    else utf8 "0." ++ List.replicate (places - ds.length) 0x30 ++ ds

/-- Scientific text: one digit, the point, the other digits or a zero, and the exponent. -/
def scientific (d : Decimal) : Bytes :=
  let ds := Bytes.ofNat d.coefficient
  let fraction := if ds.length = 1 then utf8 "0" else ds.drop 1
  ds.take 1 ++ utf8 "." ++ fraction ++ utf8 "E" ++ Bytes.ofInt (d.exponent + ds.length - 1)

end Decimal

/-- Whether a magnitude is written positionally: from a thousandth up to ten million. -/
def Magnitude.isPositional (m : Magnitude) : Bool :=
  unitsPerOne ≤ 1000 * m.units && m.units < 10 ^ (7 : Nat) * unitsPerOne

/-- The text of a magnitude. -/
def Magnitude.toText (m : Magnitude) : Bytes :=
  if m.units = 0 then "0.0"
  else if m.isPositional then (Decimal.shortest m).positional
  else (Decimal.shortest m).scientific

/-- A minus sign for negative numbers. -/
def Double.sign (negative : Bool) : Bytes := if negative then [0x2d] else []

/-- The text of a double. -/
def Double.toText : Double → Bytes
  | .nan => "NaN"
  | .infinity negative => sign negative ++ utf8 "Infinity"
  | .finite negative m => sign negative ++ m.toText

end LineCalc
