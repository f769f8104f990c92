import LineCalc.Double.Round
/-!
# Arithmetic of doubles

Sum, difference, product and quotient round the exact result; the cases with an infinity, a zero
divisor or no number follow binary64.  Integers are rounded to doubles, and doubles are cut off to
integers.
-/
namespace LineCalc.Double

/-- The double with the other sign. -/
def neg : Double → Double
  | nan => nan
  | infinity s => infinity (!s)
  | finite s m => finite (!s) m

/-- The sum.  Opposite infinities have none; a zero sum is negative only if both terms are. -/
def add : Double → Double → Double
  | nan, _ | _, nan => nan
  | infinity s, infinity t => if s == t then infinity s else nan
  | infinity s, finite _ _ => infinity s
  | finite _ _, infinity t => infinity t
  | finite s a, finite t b =>
    let sum := signed s a.units + signed t b.units
    if sum = 0 then finite (s && t) .zero else round (sum < 0) sum.natAbs 1

/-- The difference. -/
def sub (x y : Double) : Double := add x (neg y)

/-- The product.  Zero times an infinity has none. -/
def mul : Double → Double → Double
  | nan, _ | _, nan => nan
  | infinity s, infinity t => infinity (s != t)
  | infinity s, finite t m | finite t m, infinity s =>
    if m.units = 0 then nan else infinity (s != t)
  | finite s a, finite t b => round (s != t) (a.units * b.units) unitsPerOne

/-- The quotient.  Dividing by zero gives an infinity, or no number if the dividend is zero. -/
def div : Double → Double → Double
  | nan, _ | _, nan => nan
  | infinity _, infinity _ => nan
  | infinity s, finite t _ => infinity (s != t)
  | finite s _, infinity t => finite (s != t) .zero
  | finite s a, finite t b =>
    if b.units = 0 then
      if a.units = 0 then nan else infinity (s != t)
    else round (s != t) (a.units * unitsPerOne) b.units

instance : Neg Double := ⟨neg⟩
instance : Add Double := ⟨add⟩
instance : Sub Double := ⟨sub⟩
instance : Mul Double := ⟨mul⟩
instance : Div Double := ⟨div⟩

/-! ## Integers -/

/-- The double nearest to an integer. -/
def ofInt (i : Int) : Double := round (i < 0) (i.natAbs * unitsPerOne) 1

/-- A finite double without its fraction; `none` for the others. -/
def truncate? : Double → Option Int
  | finite s m => some (signed s (m.units / unitsPerOne))
  | _ => none

/-- A double without its fraction, as a double.  What is not finite stays as it is. -/
def trunc : Double → Double
  | finite s m => round s (m.units / unitsPerOne * unitsPerOne) 1
  | x => x

/-- Whether a double is at most another one.  What is no number is compared with nothing. -/
def le : Double → Double → Bool
  | nan, _ | _, nan => false
  | infinity s, infinity t => s || !t
  | infinity s, finite _ _ => s
  | finite _ _, infinity t => !t
  | finite s a, finite t b => signed s a.units ≤ signed t b.units

/-- The 64-bit integer that a double is converted to; `none` if 64 bits do not hold its whole part,
and the conversion is not defined. -/
def toInt64? (x : Double) : Option Int64 :=
  x.truncate?.bind fun i =>
    if -2 ^ (63 : Nat) ≤ i ∧ i < 2 ^ (63 : Nat) then some (Int64.ofInt i) else none

/-- A finite double without its fraction and within 64 bits.  The bounds are compared as doubles,
for which the upper one is rounded up; only what is between them is converted. -/
def saturate? (x : Double) : Option Int64 :=
  if x.isFinite then
    if (ofInt Int64.maxValue.toInt).le x.trunc then some Int64.maxValue
    else if x.trunc.le (ofInt Int64.minValue.toInt) then some Int64.minValue
    else x.trunc.toInt64?
  else none

end LineCalc.Double
