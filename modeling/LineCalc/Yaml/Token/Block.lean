import LineCalc.Yaml.Token.Scalar
/-!
# Scalars in blocks of lines

A block scalar is made of the lines that are indented by as much as its first one.  A literal one
keeps its line breaks; in a folded one a line break between two lines that do not start with a
blank stands for a space.  What becomes of the line breaks at the end is stated before the block.
-/
namespace LineCalc.Yaml

/-- What becomes of the line breaks at the end of a block. -/
inductive Chomping where
  | strip
  | clip
  | keep
  deriving DecidableEq, Repr

/-- What is stated before a block; the indentation is zero if it is not stated. -/
structure BlockHeader where
  chomping : Chomping := .clip
  indentation : Nat := 0

/-! ## The line before the block -/

/-- Reads the mark for the line breaks at the end, if it is there. -/
def takeChomping (c : Cursor) : Option Chomping × Cursor :=
  if c.isAt '+' then (some .keep, c.next)
  else if c.isAt '-' then (some .strip, c.next)
  else (none, c)

/-- Reads the indentation, if it is there. -/
def takeIndentation (start : Mark) (c : Cursor) : Except Problem (Nat × Cursor) :=
  match c.rest with
  | a :: _ =>
    if a == '0' then .error (.inText .zeroIndentation start c.mark)
    else if a.isDigit then .ok (a.toNat - 48, c.next)
    else .ok (0, c)
  | [] => .ok (0, c)

/-- Reads both marks, in either order. -/
def takeHeader (start : Mark) (c : Cursor) : Except Problem (BlockHeader × Cursor) := do
  let c ← c.need 1
  match takeChomping c with
  | (some chomping, c) =>
    let (n, c) ← takeIndentation start (← c.need 1)
    return (⟨chomping, n⟩, c)
  | (none, c) =>
    let (n, c) ← takeIndentation start c
    if n == 0 then return (⟨.clip, 0⟩, c)
    let (chomping, c) := takeChomping (← c.need 1)
    return (⟨chomping.getD .clip, n⟩, c)

/-- Passes the rest of a line, which may hold a comment only. -/
def passLineEnd (start : Mark) (c : Cursor) : Except Problem Cursor := do
  let c ← c.dropWhile isBlank
  let c ← if c.isAt '#' then c.dropWhile (!isBreak ·) else pure c
  if !endsOrBreak c.rest then throw (.inText .noLineEnd start c.mark)
  if c.rest.isEmpty then return c
  return (← c.need 2).next

/-! ## The block -/

/-- What stands before a line of a block. -/
structure Lead where
  /-- The line breaks, last first. -/
  breaks : List Char
  /-- The greatest column that was reached. -/
  widest : Nat
  cursor : Cursor

/-- Passes empty lines and the indentation of the line after them; zero stands for an indentation
that is not known yet. -/
def passLead (start : Mark) (indent : Nat) (breaks : List Char) (widest : Nat) :
    (rest : List Char) → Place → Except Problem Lead
  | [], p => do
    let p ← p.need 1 []
    return ⟨breaks, max widest p.mark.column, ⟨[], p⟩⟩
  | c :: r, p => do
    let p ← p.need 1 (c :: r)
    let isIndenting := indent == 0 || p.mark.column < indent
    let widest' := max widest p.mark.column
    if c == ' ' && isIndenting then passLead start indent breaks widest r (p.after c)
    else if c == '\t' && isIndenting then throw (.inText .tabForSpace start p.mark)
    else if isBreak c then
      let p ← p.need 2 (c :: r)
      passLead start indent (breakText c :: breaks) widest' r (p.after c)
    else return ⟨breaks, widest', ⟨c :: r, p⟩⟩

/-- What joins a line to the one before it, last character first. -/
def joint (isFolded afterBlank beforeBlank : Bool) (lineBreak : Option Char)
    (breaks : List Char) : List Char :=
  if isFolded && !afterBlank && !beforeBlank && lineBreak == some '\n' then
    if breaks.isEmpty then [' '] else breaks
  else breaks ++ lineBreak.toList

/-- The text of a block so far. -/
structure BlockText where
  /-- The text, last character first, without what comes after its last line. -/
  text : List Char
  /-- The line break after the last line. -/
  lineBreak : Option Char
  /-- Whether the last line starts with a blank. -/
  afterBlank : Bool
  lead : Lead

/-- Reads the lines of a block, `fuel` of them at most. -/
def takeLines (isFolded : Bool) (start : Mark) (indent : Nat) :
    (fuel : Nat) → BlockText → Except Problem BlockText
  | 0, b => .ok b
  | fuel + 1, b => do
    let cur := b.lead.cursor
    if cur.mark.column ≠ indent || cur.rest.isEmpty then return b
    let isBlankLine := cur.rest.head?.any isBlank
    let text := joint isFolded b.afterBlank isBlankLine b.lineBreak b.lead.breaks ++ b.text
    let (line, cur) ← cur.takeWhile (!isBreak ·)
    let cur ← cur.need 2
    let lead ← passLead start indent [] 0 cur.next.rest cur.next.place
    takeLines isFolded start indent fuel
      ⟨line.reverse ++ text, cur.rest.head?.map breakText, isBlankLine, lead⟩

/-- Reads a block after its mark, inside a collection that is indented by `outer`. -/
def scanBlock (isFolded : Bool) (outer : Int) (start : Mark) (c : Cursor) :
    Except Problem ScannedScalar := do
  let (header, c) ← takeHeader start c
  let c ← passLineEnd start c
  let stated := if header.indentation = 0 then 0 else header.indentation + outer.toNat
  let lead ← passLead start stated [] 0 c.rest c.place
  let indent := if stated = 0 then max (max lead.widest (outer + 1).toNat) 1 else stated
  let b ← takeLines isFolded start indent (c.rest.length + 1) ⟨[], none, false, lead⟩
  let ending := match header.chomping with
    | .strip => []
    | .clip => b.lineBreak.toList
    | .keep => b.lead.breaks ++ b.lineBreak.toList
  return ⟨(ending ++ b.text).reverse, b.lead.cursor, true⟩

end LineCalc.Yaml
