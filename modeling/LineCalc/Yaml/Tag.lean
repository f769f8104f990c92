import LineCalc.Yaml.Timestamp
import LineCalc.Decimal.Reading
/-!
# Types of YAML values

A scalar without quotes is typed by its text: some texts are null, booleans, numbers or points in
time, and all others are strings.
-/
namespace LineCalc.Yaml

/-- The types of YAML values. -/
inductive Tag where
  | null
  | bool
  | int
  | float
  | timestamp
  | str
  | binary
  | merge
  | seq
  | map
  | other (name : Bytes)
  deriving DecidableEq, Repr

/-- The short name of a type. -/
def Tag.text : Tag → Bytes
  | null => "!!null"
  | bool => "!!bool"
  | int => "!!int"
  | float => "!!float"
  | timestamp => "!!timestamp"
  | str => "!!str"
  | binary => "!!binary"
  | merge => "!!merge"
  | seq => "!!seq"
  | map => "!!map"
  | other name => name

/-- The type that a tag states by its short name. -/
def Tag.ofName (s : Bytes) : Tag :=
  ([.null, .bool, .int, .float, .timestamp, .str, .binary, .merge, .seq, .map].find?
    (·.text == s)).getD (.other s)

/-! ## Words -/

/-- The texts of true. -/
def trueWords : List Bytes := ["true", "True", "TRUE"]

/-- The texts of false. -/
def falseWords : List Bytes := ["false", "False", "FALSE"]

/-- The texts of null. -/
def nullWords : List Bytes := ["", "~", "null", "Null", "NULL"]

/-- The texts of the infinities and of no number. -/
def floatWords : List Bytes :=
  [".nan", ".NaN", ".NAN", ".inf", ".Inf", ".INF", "+.inf", "+.Inf", "+.INF", "-.inf", "-.Inf",
    "-.INF"]

/-- The texts that older readers took for true. -/
def oldTrueWords : List Bytes := ["y", "Y", "yes", "Yes", "YES", "on", "On", "ON"]

/-- The texts that older readers took for false. -/
def oldFalseWords : List Bytes := ["n", "N", "no", "No", "NO", "off", "Off", "OFF"]

/-- The type of a fixed word. -/
def Tag.ofWord? (s : Bytes) : Option Tag :=
  if trueWords.contains s || falseWords.contains s then some bool
  else if nullWords.contains s then some null
  else if floatWords.contains s then some float
  else none

/-! ## Numbers -/

/-- The value of a digit in a base of up to sixteen. -/
def digitIn? (base : Nat) (b : UInt8) : Option Nat :=
  if isDigitOf true b && digitValueOf b < base then some (digitValueOf b) else none

/-- The number that digits write in a base. -/
def natIn? (base : Nat) (ds : Bytes) : Option Nat :=
  ds.foldlM (fun n b => (digitIn? base b).map (base * n + ·)) 0

/-- The number that a text without sign writes: in base ten, or in the base that a leading zero
and perhaps a letter give. -/
def magnitude? (s : Bytes) : Option Nat :=
  match s with
  | 0x30 :: b :: c :: r =>
    if Bytes.lower b == 0x62 then natIn? 2 (c :: r)
    else if Bytes.lower b == 0x6f then natIn? 8 (c :: r)
    else if Bytes.lower b == 0x78 then natIn? 16 (c :: r)
    else natIn? 8 (b :: c :: r)
  | 0x30 :: r => natIn? 8 r
  | [] => none
  | ds => natIn? 10 ds

/-- Whether a text has a sign at its front. -/
def hasSign (s : Bytes) : Bool :=
  match s with
  | b :: _ => b == 0x2b || b == 0x2d
  | [] => false

/-- Whether a number with this sign fits into 64 bits; one without a sign may use all of them. -/
def fits (isSigned negative : Bool) (n : Nat) : Bool :=
  if negative then n ≤ 2 ^ (63 : Nat)
  else if isSigned then n < 2 ^ (63 : Nat)
  else n < 2 ^ (64 : Nat)

/-- Whether a text is a base mark followed by a signed number in that base. -/
def isMarkedInteger (s : Bytes) : Bool :=
  match s with
  | 0x30 :: b :: r =>
    let base := if b == 0x62 then 2 else if b == 0x6f then 8 else 0
    let (negative, ds) := splitSign r
    hasSign r && base != 0 && !ds.isEmpty && (natIn? base ds).any (fits true negative)
  | _ => false

/-- Whether a text is an integer of at most 64 bits. -/
def isInteger (s : Bytes) : Bool :=
  let (negative, r) := splitSign s
  (magnitude? r).any (fits (hasSign s) negative) || isMarkedInteger s

/-- Whether a text is an integer of at most 64 bits, one of them for the sign. -/
def isSignedInteger (s : Bytes) : Bool :=
  let (negative, r) := splitSign s
  (magnitude? r).any (fits true negative) || isMarkedInteger s

/-- Whether a text is an exponent part or empty. -/
def isExponent : Bytes → Bool
  | [] => true
  | e :: r =>
    let ds := (splitSign r).2
    Bytes.lower e == 0x65 && !ds.isEmpty && ds.all Bytes.isDigit

/-- Whether a text has the form of a decimal number. -/
def isDecimal (s : Bytes) : Bool :=
  let r := (splitSign s).2
  let whole := r.takeWhile Bytes.isDigit
  match r.dropWhile Bytes.isDigit with
  | 0x2e :: f =>
    !(whole.isEmpty && (f.takeWhile Bytes.isDigit).isEmpty) &&
      isExponent (f.dropWhile Bytes.isDigit)
  | e => !whole.isEmpty && isExponent e

/-- Whether a text is a double in decimal notation. -/
def isFloat (s : Bytes) : Bool := isDecimal s && (readDouble? s).isSome

/-! ## The type of a text -/

/-- The type of a text that starts like a number; underscores in numbers mean nothing.  It may be
a point in time only if `dates` says so. -/
def Tag.ofNumber (dates : Bool) (s : Bytes) : Tag :=
  let plain := s.filter (· != 0x5f)
  if dates && isTimestamp s then timestamp
  else if isInteger plain then int
  else if isFloat plain then float
  else str

/-- The type that a text has by itself, with points in time or without. -/
def Tag.ofText (dates : Bool) (s : Bytes) : Tag :=
  match ofWord? s with
  | some t => t
  | none =>
    match s with
    | b :: _ =>
      if b == 0x2e then if (readDouble? s).isSome then float else str
      else if Bytes.isDigit b || hasSign s then ofNumber dates s
      else str
    | [] => null

/-- The type of a scalar without quotes. -/
def Tag.ofPlain (s : Bytes) : Tag := ofText true s

/-! ## Texts that older readers take for another type -/

/-- Whether a text is one or more colons, each followed by a number below sixty of one or two
digits, and then nothing or a point with digits and underscores. -/
def isSexagesimalTail : Bytes → Bool
  | 0x3a :: a :: b :: r =>
    if Bytes.isDigit b then
      0x30 ≤ a && a ≤ 0x35 && (r.isEmpty || isSexagesimalTail r)
    else Bytes.isDigit a && isSexagesimalTail (b :: r)
  | [0x3a, a] => Bytes.isDigit a
  | 0x2e :: r => r.all fun b => Bytes.isDigit b || b == 0x5f
  | _ => false

/-- Whether a text is a number in base sixty. -/
def isSexagesimal (s : Bytes) : Bool :=
  let r := (splitSign s).2
  match r with
  | d :: _ =>
    let tail := r.dropWhile fun b => Bytes.isDigit b || b == 0x5f
    Bytes.isDigit d && tail.head? == some 0x3a && isSexagesimalTail tail
  | [] => false

/-- Whether some reader takes the text for something else than a string. -/
def isAmbiguous (s : Bytes) : Bool :=
  Tag.ofPlain s != .str || isSexagesimal s || oldTrueWords.contains s || oldFalseWords.contains s

end LineCalc.Yaml
