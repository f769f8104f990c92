import LineCalc.Text.Bytes
/-!
# Dates and times in YAML

The texts that a YAML reader takes for a point in time: a date with a year of four digits, alone,
or with a time after a `T` (and then with a zone) or after spaces (and then without one).
-/
namespace LineCalc.Yaml

/-- A number of one or two digits, and the rest. -/
def readField? : Bytes → Option (Nat × Bytes)
  | a :: b :: r =>
    if !Bytes.isDigit a then none
    else if Bytes.isDigit b then some (10 * Bytes.digitValue a + Bytes.digitValue b, r)
    else some (Bytes.digitValue a, b :: r)
  | [a] => if Bytes.isDigit a then some (Bytes.digitValue a, []) else none
  | [] => none

/-- A number of one or two digits that is below `bound`, and the rest. -/
def readBelow? (bound : Nat) (s : Bytes) : Option (Nat × Bytes) :=
  (readField? s).bind fun (n, r) => if n < bound then some (n, r) else none

/-- The text after the character `b`. -/
def readMark? (b : UInt8) : Bytes → Option Bytes
  | c :: r => if c == b then some r else none
  | [] => none

/-- The number of days in a month. -/
def daysIn (year month : Nat) : Nat :=
  if month = 2 then
    if year % 4 = 0 && (year % 100 != 0 || year % 400 = 0) then 29 else 28
  else if [4, 6, 9, 11].contains month then 30
  else 31

/-- The text after a date. -/
def afterDate? (s : Bytes) : Option Bytes := do
  let digits := s.takeWhile Bytes.isDigit
  if digits.length ≠ 4 then none
  let r ← readMark? 0x2d (s.drop 4)
  let (month, r) ← readBelow? 13 r
  let r ← readMark? 0x2d r
  let (day, r) ← readField? r
  if 1 ≤ month ∧ 1 ≤ day ∧ day ≤ daysIn (Bytes.toNat digits) month then some r else none

/-- The text after a fraction of a second, if there is one. -/
def afterFraction : Bytes → Bytes
  | p :: d :: r =>
    if (p == 0x2e || p == 0x2c) && Bytes.isDigit d then r.dropWhile Bytes.isDigit else p :: d :: r
  | s => s

/-- The text after a time of day. -/
def afterTime? (s : Bytes) : Option Bytes := do
  let (_, r) ← readBelow? 24 s
  let r ← readMark? 0x3a r
  let (_, r) ← readBelow? 60 r
  let r ← readMark? 0x3a r
  let (_, r) ← readBelow? 60 r
  some (afterFraction r)

/-- Whether a text is a time zone: `Z`, or a sign, hours and minutes of two digits each. -/
def isZone : Bytes → Bool
  | [z] => z == 0x5a
  | [sign, a, b, colon, c, d] =>
    (sign == 0x2b || sign == 0x2d) && colon == 0x3a && [a, b, c, d].all Bytes.isDigit &&
      Bytes.toNat [a, b] ≤ 24 && Bytes.toNat [c, d] ≤ 60
  | _ => false

/-- Whether a text is a point in time. -/
def isTimestamp (s : Bytes) : Bool :=
  match afterDate? s with
  | none => false
  | some [] => true
  | some (b :: r) =>
    if b == 0x54 || b == 0x74 then (afterTime? r).any isZone
    else if b == 0x20 then (afterTime? (r.dropWhile (· == 0x20))).any List.isEmpty
    else false

end LineCalc.Yaml
