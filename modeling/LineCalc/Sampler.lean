import LineCalc.Value
/-!
# Sample programs

Programs drawn from a list of bytes, one byte for each choice.  A program only uses variables
that it declared on an earlier line, and only with their kinds, so whatever the bytes are, the one
thing that can go wrong when it runs is a division of integers by zero.
-/
namespace LineCalc

/-- The bytes that are left to choose by, and the variables declared so far, oldest first. -/
structure Sampler where
  data : Bytes
  declared : List (Bytes × Kind)

namespace Sampler

/-- Something drawn with the help of the bytes. -/
abbrev Draw (α : Type) := StateM Sampler α

/-- The sampler that starts with the given bytes. -/
def ofBytes (data : Bytes) : Sampler := ⟨data, []⟩

/-! ## Choices -/

/-- A number below `n`: the next byte modulo `n`, or zero when no byte is left.  With nothing to
choose from, no byte is used. -/
def choose (n : Nat) : Draw Nat := fun g =>
  match n, g.data with
  | 0, _ => (0, g)
  | _, [] => (0, g)
  | n + 1, b :: r => (b.toNat % (n + 1), { g with data := r })

/-- Whether a choice among `n` falls on the first. -/
def oneIn (n : Nat) : Draw Bool := return (← choose n) == 0

/-- One member of a list, or `default` if it is empty. -/
def pick (default : α) (xs : List α) : Draw α := return xs.getD (← choose xs.length) default

/-- The texts of `n` draws, one after the other. -/
def times : (n : Nat) → Draw Bytes → Draw Bytes
  | 0, _ => return []
  | n + 1, d => do
    let first ← d
    let rest ← times n d
    return first ++ rest

/-! ## Literals -/

/-- One to four digits. -/
def digits : Draw Bytes := do
  let n ← choose 4
  times (n + 1) (return [Bytes.digit (← choose 10)])

/-- A sign, or more often none. -/
def sign : Draw Bytes := do
  match ← choose 5 with
  | 0 => return utf8 "-"
  | 1 => return utf8 "+"
  | _ => return []

/-- A literal of the kind, without a sign. -/
def unsigned : Kind → Draw Bytes
  | .int => digits
  | .double => do
    let whole ← digits
    let fraction ← digits
    return whole ++ utf8 "." ++ fraction

/-- A literal of the kind, with a sign or without. -/
def signed (k : Kind) : Draw Bytes := do
  let s ← sign
  return s ++ (← unsigned k)

/-- A space, or more often nothing. -/
def gap : Draw Bytes := do
  if ← oneIn 3 then return utf8 " " else return []

/-! ## Statements -/

/-- The names that a program may declare. -/
def names : List Bytes := ["x", "y", "z", "a", "b", "_t", "n1"]

/-- The kind of a name: the one that it was declared with, or one that is drawn and from then on
its kind. -/
def kindOf (name : Bytes) : Draw Kind := do
  match (← get).declared.lookup name with
  | some k => return k
  | none =>
    let k := if ← oneIn 2 then Kind.double else Kind.int
    modify fun g => { g with declared := g.declared ++ [(name, k)] }
    return k

/-- A declaration, with a value or without. -/
def declaration : Draw Bytes := do
  let name ← pick (utf8 "x") names
  let k ← kindOf name
  if ← oneIn 3 then return k.text ++ utf8 " " ++ name ++ utf8 ";"
  else
    let left ← gap
    let right ← gap
    let value ← signed k
    return k.text ++ utf8 " " ++ name ++ left ++ utf8 "=" ++ right ++ value ++ utf8 ";"

/-- An assignment to a declared variable from a variable of its kind or a literal. -/
def assignment : Draw Bytes := do
  let declared := (← get).declared
  let (target, k) ← pick (utf8 "x", .int) declared
  let value ←
    if ← oneIn 2 then pick target ((declared.filter (·.2 == k)).map (·.1))
    else signed k
  let closing := if ← oneIn 4 then [] else utf8 ";"
  let left ← gap
  let right ← gap
  return target ++ left ++ utf8 "=" ++ right ++ value ++ closing

/-- An operand: a declared variable or a literal, sometimes negated. -/
def operand : Draw Bytes := do
  let minus := if ← oneIn 6 then utf8 "-" else []
  let declared := (← get).declared
  let useVariable ← if declared.isEmpty then pure false else oneIn 2
  if useVariable then
    let (name, _) ← pick (utf8 "x", .int) declared
    return minus ++ name
  else
    let k := if ← oneIn 3 then Kind.double else Kind.int
    return minus ++ (← unsigned k)

/-- An expression of at most `more + 1` operands. -/
def expression : (more : Nat) → Draw Bytes
  | 0 => operand
  | more + 1 => do
    let first ← operand
    if ← oneIn 3 then return first
    else
      let op ← pick (utf8 "+") ["+", "-", "*", "/"]
      let left ← gap
      let right ← gap
      let rest ← expression more
      return first ++ left ++ op ++ right ++ rest

/-- A print line. -/
def print : Draw Bytes := do
  return utf8 "print(" ++ (← expression 4) ++ utf8 ");"

/-- A statement; the first one declares. -/
def statement : Draw Bytes := do
  if (← get).declared.isEmpty then declaration
  else
    let choice ← choose 10
    if choice < 3 then declaration else if choice < 5 then assignment else print

/-! ## Programs -/

/-- One character of white space. -/
def blank : Draw Bytes := do
  match ← choose 3 with
  | 0 => return utf8 " "
  | 1 => return utf8 "\t"
  | _ => return utf8 "\n"

/-- Sometimes a little white space before a statement, which may hold empty lines. -/
def noise : Draw Bytes := do
  if ← oneIn 10 then
    let n ← choose 3
    times (n + 1) blank
  else return []

/-- A statement on its line, with the white space before it. -/
def line : Draw Bytes := do
  let before ← noise
  let s ← statement
  return before ++ s ++ utf8 "\n"

/-- A program of one to eight statements. -/
def program : Draw Bytes := do
  let n ← choose 8
  times (n + 1) line

end Sampler

end LineCalc
