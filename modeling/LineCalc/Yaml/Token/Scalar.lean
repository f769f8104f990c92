import LineCalc.Yaml.Token.Basic
/-!
# Scalars in lines of text

Reading a scalar, with quotes or without.  Within a scalar a single line break stands for a space,
and of several the first is dropped; blanks beside a line break mean nothing.
-/
namespace LineCalc.Yaml

/-! ## Gaps -/

/-- What was passed since the last character that counts, last first. -/
inductive Gap where
  | none
  | blanks (cs : List Char)
  /-- Line breaks; the first of them is missing if it was taken back by a backslash. -/
  | breaks (first : Option Char) (more : List Char)

namespace Gap

/-- The gap with one more character, a blank or a line break. -/
def push : Gap → Char → Gap
  | none, c => if isBreak c then breaks (breakText c) [] else blanks [c]
  | blanks cs, c => if isBreak c then breaks (breakText c) [] else blanks (c :: cs)
  | breaks f more, c => if isBreak c then breaks f (breakText c :: more) else breaks f more

/-- Whether the gap holds a line break. -/
def hasBreak : Gap → Bool
  | breaks _ _ => true
  | _ => false

/-- Whether there is no gap. -/
def isNone : Gap → Bool
  | none => true
  | _ => false

/-- What the gap stands for, last character first. -/
def folded : Gap → List Char
  | none => []
  | blanks cs => cs
  | breaks (some '\n') [] => [' ']
  | breaks (some '\n') more => more
  | breaks (some c) more => more ++ [c]
  | breaks Option.none more => more

end Gap

/-- The place after a blank or a line break before `rest`. -/
def Place.afterGap (p : Place) (c : Char) (rest : List Char) : Except Problem Place := do
  let p ← if isBreak c then p.need 2 (c :: rest) else pure p
  (p.after c).need 1 rest

/-! ## Scalars without quotes -/

/-- The characters that end a scalar inside brackets. -/
def isFlowIndicator (c : Char) : Bool := [',', '?', '[', ']', '\x7b', '\x7d'].contains c

/-- A scalar that was read: its text, where the reading stopped, and whether that was after a line
break. -/
structure ScannedScalar where
  text : List Char
  cursor : Cursor
  endsLine : Bool

/-- Whether a scalar without quotes ends before the characters `c :: r` at `m`, where `gap` was
passed. -/
def plainEnds (inFlow : Bool) (gap : Gap) (c : Char) (r : List Char) (m : Mark) : Bool :=
  (!gap.isNone && (atBorder m (c :: r) || c == '#')) || (c == ':' && endsOrGap r) ||
    (inFlow && isFlowIndicator c)

/-- Whether a line at `m` is not indented enough to belong to the scalar before the gap. -/
def leavesPlain (inFlow : Bool) (indent : Int) (gap : Gap) (m : Mark) : Bool :=
  !gap.isNone && !inFlow && (m.column : Int) < indent

/-- Reads a scalar without quotes.  The lines after its first must be indented by `indent` at
least, unless it stands in brackets. -/
def scanPlain (inFlow : Bool) (indent : Int) (start : Mark) (gap : Gap) (text : List Char) :
    (rest : List Char) → Place → Except Problem ScannedScalar
  | [], p => do
    let p ← if gap.isNone || leavesPlain inFlow indent gap p.mark then pure p else p.need 4 []
    return ⟨text.reverse, ⟨[], p⟩, gap.hasBreak⟩
  | c :: r, p => do
    if isBlank c || isBreak c then
      if c == '\t' && gap.hasBreak && (p.mark.column : Int) < indent then
        throw (.inText .tabIndentation start p.mark)
      scanPlain inFlow indent start (gap.push c) text r (← p.afterGap c r)
    else if leavesPlain inFlow indent gap p.mark then
      return ⟨text.reverse, ⟨c :: r, p⟩, gap.hasBreak⟩
    else
      let p ← if gap.isNone then pure p else p.need 4 (c :: r)
      if plainEnds inFlow gap c r p.mark then
        return ⟨text.reverse, ⟨c :: r, p⟩, gap.hasBreak⟩
      else
        let p ← (p.after c).need 2 r
        scanPlain inFlow indent start .none (c :: (gap.folded ++ text)) r p

/-! ## Scalars in quotes -/

/-- What a backslash and a character stand for. -/
inductive Escape where
  | char (c : Char)
  /-- A number of hexadecimal digits follows. -/
  | code (width : Nat)

/-- The escape that a character after a backslash makes. -/
def escape? (c : Char) : Option Escape :=
  match [('0', '\x00'), ('a', '\x07'), ('b', '\x08'), ('t', '\t'), ('\t', '\t'), ('n', '\n'),
      ('v', '\x0b'), ('f', '\x0c'), ('r', '\r'), ('e', '\x1b'), (' ', ' '), ('"', '"'),
      ('\'', '\''), ('\\', '\\'), ('N', '\u0085'), ('_', '\u00a0'), ('L', '\u2028'),
      ('P', '\u2029')].lookup c with
  | some d => some (.char d)
  | none => ([('x', 2), ('u', 4), ('U', 8)].lookup c).map .code

/-- The value of a hexadecimal digit. -/
def hexValue? (c : Char) : Option Nat :=
  if c.toNat < 0x80 then digitIn? 16 (UInt8.ofNat c.toNat) else none

/-- The number that `width` hexadecimal digits write. -/
def hexCode? (width : Nat) (cs : List Char) : Option Nat :=
  let ds := cs.take width
  if ds.length < width then none
  else ds.foldlM (fun n c => (hexValue? c).map (16 * n + ·)) 0

/-- The character that `width` hexadecimal digits write. -/
def codeChar (width : Nat) (cs : List Char) : Except Cause Char :=
  match hexCode? width cs with
  | none => .error .noHexNumber
  | some n => if isNoCharacter n then .error .escapeCode else .ok (Char.ofNat n)

/-- Reads a scalar up to its closing `quote`.  Only double quotes know escapes; a single quote that
is doubled stands for itself. -/
def scanQuoted (quote : Char) (start : Mark) (gap : Gap) (text : List Char) (rest : List Char)
    (p : Place) : Except Problem ScannedScalar :=
  match rest with
  | [] => do
    let p ← p.need 4 []
    throw (.inText .endOfStream start p.mark)
  | c :: r => do
    if isBlank c || isBreak c then
      scanQuoted quote start (gap.push c) text r (← p.afterGap c r)
    else
      let p ← if gap.isNone then pure p else p.need 4 (c :: r)
      if atBorder p.mark (c :: r) then throw (.inText .documentIndicator start p.mark)
      let text := gap.folded ++ text
      if c == quote then
        match r with
        | '\'' :: r' =>
          if quote == '\'' then
            let p ← (p.afterAll [c, '\'']).need 2 r'
            scanQuoted quote start .none ('\'' :: text) r' p
          else return ⟨text.reverse, ⟨r, p.after c⟩, false⟩
        | _ => return ⟨text.reverse, ⟨r, p.after c⟩, false⟩
      else if quote == '"' && c == '\\' then
        match r with
        | [] => throw (.inText .unknownEscape start p.mark)
        | d :: r' =>
          if isBreak d then
            let p ← p.need 3 (c :: d :: r')
            scanQuoted quote start (.breaks none []) text r' (← (p.afterAll [c, d]).need 1 r')
          else match escape? d with
            | none => throw (.inText .unknownEscape start p.mark)
            | some (.char a) =>
              scanQuoted quote start .none (a :: text) r' (← (p.afterAll [c, d]).need 2 r')
            | some (.code width) =>
              let p ← (p.afterAll [c, d]).need width r'
              match codeChar width r' with
              | .error e => throw (.inText e start p.mark)
              | .ok a =>
                let after := p.afterAll (r'.take width)
                scanQuoted quote start .none (a :: text) (r'.drop width)
                  (← after.need 2 (r'.drop width))
      else scanQuoted quote start .none (c :: text) r (← (p.after c).need 2 r)
termination_by rest.length
decreasing_by all_goals simp_wf <;> omega

end LineCalc.Yaml
