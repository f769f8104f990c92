import LineCalc.Decimal.Basic
import LineCalc.Text.Bytes
/-!
# Numbers read from text

An integer is an optional sign and decimal digits, within 64 bits.  A double is an optional sign
and either a name of infinity, or digits with at most one point and an optional exponent; a
leading `0x` makes the digits hexadecimal and the exponent, then obligatory, a power of two; or
the name of no number, which takes no sign.  Underscores may separate digits.  A double too large
to be finite is refused, one too small becomes zero.
-/
namespace LineCalc

/-! ## Signs -/

/-- Splits off an optional sign: whether it is a minus, and the rest. -/
def splitSign : Bytes → Bool × Bytes
  | 0x2b :: r => (false, r)
  | 0x2d :: r => (true, r)
  | s => (false, s)

/-! ## Integers -/

/-- A 64-bit integer written in decimal. -/
def readInt? (s : Bytes) : Option Int64 :=
  let (negative, ds) := splitSign s
  if ds.isEmpty || !ds.all Bytes.isDigit then none
  else
    let i := Double.signed negative (Bytes.toNat ds)
    if -2 ^ (63 : Nat) ≤ i ∧ i < 2 ^ (63 : Nat) then some (Int64.ofInt i) else none

/-! ## Doubles -/

/-- The digits of base ten, or of base sixteen. -/
def isDigitOf (isHex : Bool) (b : UInt8) : Bool :=
  Bytes.isDigit b || (isHex && 0x61 ≤ Bytes.lower b && Bytes.lower b ≤ 0x66)

/-- The value of a digit of either base. -/
def digitValueOf (b : UInt8) : Nat :=
  if Bytes.isDigit b then Bytes.digitValue b else (Bytes.lower b).toNat - 0x57

/-- The number that the digits write in base `base`, skipping everything else. -/
def readDigits (isHex : Bool) (s : Bytes) : Nat :=
  let base := if isHex then 16 else 10
  (s.filter (isDigitOf isHex)).foldl (fun n b => base * n + digitValueOf b) 0

/-- The value of exponent digits; it stops growing once it has five of them. -/
def readExponent (s : Bytes) : Nat :=
  (s.filter Bytes.isDigit).foldl (fun n b => if n < 10000 then 10 * n + Bytes.digitValue b else n) 0

/-- What an underscore may follow. -/
inductive SeparatorState where
  | start
  | digit
  | underscore
  | other
  deriving DecidableEq

/-- Whether every underscore of the rest stands between digits, given what came before. -/
def separatorsFit (isHex : Bool) : SeparatorState → Bytes → Bool
  | seen, [] => seen != .underscore
  | seen, b :: r =>
    if isDigitOf isHex b then separatorsFit isHex .digit r
    else if b == 0x5f then seen == .digit && separatorsFit isHex .underscore r
    else seen != .underscore && separatorsFit isHex .other r

/-- A leading zero and a letter that names a base. -/
def splitBase? : Bytes → Option (UInt8 × Bytes)
  | 0x30 :: b :: r => if [0x62, 0x6f, 0x78].contains (Bytes.lower b) then some (Bytes.lower b, r)
    else none
  | _ => none

/-- Whether the underscores of a number stand between digits, or between the base mark and a
digit. -/
def underscoresFit (s : Bytes) : Bool :=
  let r := (splitSign s).2
  match splitBase? r with
  | some (b, r') => separatorsFit (b == 0x78) .digit r'
  | none => separatorsFit false .start r

/-- The names of infinity and of no number. -/
def readNamed? (s : Bytes) : Option Double :=
  let (negative, r) := splitSign s
  let name := r.map Bytes.lower
  if name = ("inf" : Bytes) || name = ("infinity" : Bytes) then some (.infinity negative)
  else if s.map Bytes.lower = ("nan" : Bytes) then some .nan
  else none

/-- The exponent part of a number: `mark`, an optional sign and digits up to the end. -/
def readExponentPart? (mark : UInt8) : Bytes → Option Int
  | [] => none
  | b :: r =>
    let (negative, ds) := splitSign r
    match ds with
    | d :: _ =>
      if Bytes.lower b == mark && Bytes.isDigit d &&
          ds.all fun c => Bytes.isDigit c || c == 0x5f then
        some (Double.signed negative (readExponent ds))
      else none
    | [] => none

/-- `num / den` ones as a magnitude, where the powers may be negative. -/
def scaledMagnitude? (isHex : Bool) (digits : Nat) (places : Nat) (exponent : Int) :
    Option Magnitude :=
  if isHex then
    let power := exponent - 4 * places
    if 0 ≤ power then Magnitude.round (digits * 2 ^ power.toNat * unitsPerOne) 1
    else Magnitude.round (digits * unitsPerOne) (2 ^ (-power).toNat)
  else Decimal.toMagnitude? ⟨digits, exponent - places⟩

/-- A number of digits, without its sign. -/
def readMagnitude? (s : Bytes) : Option Magnitude :=
  let (isHex, r) := match s with
    | 0x30 :: b :: c :: r => if Bytes.lower b == 0x78 then (true, c :: r) else (false, s)
    | _ => (false, s)
  let inMantissa := fun b => isDigitOf isHex b || b == 0x5f || b == 0x2e
  let mantissa := r.takeWhile inMantissa
  let rest := r.dropWhile inMantissa
  let places := ((mantissa.dropWhile (· != 0x2e)).filter (isDigitOf isHex)).length
  if mantissa.count 0x2e ≤ 1 && mantissa.any (isDigitOf isHex) then
    let exponent? := if rest.isEmpty && !isHex then some 0
      else readExponentPart? (if isHex then 0x70 else 0x65) rest
    exponent?.bind (scaledMagnitude? isHex (readDigits isHex mantissa) places ·)
  else none

/-- A double in decimal or hexadecimal notation, or by name. -/
def readDouble? (s : Bytes) : Option Double :=
  match readNamed? s with
  | some d => some d
  | none =>
    let (negative, r) := splitSign s
    if s.any (· == 0x5f) && !underscoresFit s then none
    else (readMagnitude? r).map (.finite negative ·)

end LineCalc
