import LineCalc.Yaml.Input
import LineCalc.Yaml.Scalar
/-!
# YAML tokens

The tokens of a YAML text and the cursor that walks over its characters.  The cursor sees the text
through a window, which is filled from the portions of the text when more characters are needed
than it holds.
-/
namespace LineCalc.Yaml

/-- What a token is. -/
inductive TokenKind where
  | streamEnd
  | version (major minor : Nat)
  | tagHandle (handle stem : Bytes)
  | documentStart
  | documentEnd
  | blockSequenceStart
  | blockMappingStart
  | blockEnd
  | flowSequenceStart
  | flowSequenceEnd
  | flowMappingStart
  | flowMappingEnd
  | blockEntry
  | flowEntry
  | key
  | value
  | reference (name : Bytes)
  | anchor (name : Bytes)
  | tag (handle suffix : Bytes)
  | scalar (isQuoted : Bool) (text : Bytes)
  deriving DecidableEq, Repr

/-- A token and the position of its start. -/
structure Token where
  kind : TokenKind
  mark : Mark
  deriving DecidableEq, Repr

/-! ## The window -/

/-- The part of a text that is in sight. -/
structure Window where
  /-- The number of characters in sight that have not been passed. -/
  held : Nat
  /-- What is to come into sight. -/
  supply : List (Except Cause Nat)
  /-- Whether the window starts with a byte order mark. -/
  startsWithMark : Bool

/-- Brings portions into sight until `n` characters are held.  Past the end of the text there is
one character at a time. -/
def Window.fill (n : Nat) (held : Nat) :
    List (Except Cause Nat) → Except Cause (Nat × List (Except Cause Nat))
  | [] => .ok (held + 1, [])
  | .ok k :: more => if n ≤ held + k then .ok (held + k, more) else fill n (held + k) more
  | .error c :: _ => .error c

/-- The number of characters that a character of the text stands for. -/
def weight (c : Char) : Nat := if c == '\r' then 2 else 1

/-! ## Places -/

/-- The position after a character. -/
def Mark.after (m : Mark) (c : Char) : Mark :=
  if isBreak c then ⟨m.index + 1, m.line + 1, 0⟩ else ⟨m.index + 1, m.line, m.column + 1⟩

/-- A position and the window from there. -/
structure Place where
  mark : Mark
  window : Window

namespace Place

/-- The place after a character. -/
def after (p : Place) (c : Char) : Place :=
  ⟨p.mark.after c, { p.window with held := p.window.held - weight c }⟩

/-- The place after some characters. -/
def afterAll (p : Place) (cs : List Char) : Place := cs.foldl after p

/-- Makes sure that `n` characters are in sight at the start of `rest`.  If they are not, the
window is moved there and filled. -/
def need (n : Nat) (rest : List Char) (p : Place) : Except Problem Place :=
  if n ≤ p.window.held then .ok p
  else match Window.fill n p.window.held p.window.supply with
    | .ok (held, supply) => .ok { p with window := ⟨held, supply, rest.head? == some '\ufeff'⟩ }
    | .error c => .error (.unplaced c)

/-- Makes sure that one, two and so on up to `n` characters are in sight. -/
def needEach (n : Nat) (rest : List Char) (p : Place) : Except Problem Place :=
  (List.range n).foldlM (fun p k => p.need (k + 1) rest) p

end Place

/-! ## Walking over characters -/

/-- A place in a text and the characters from there on. -/
structure Cursor where
  rest : List Char
  place : Place

namespace Cursor

/-- The start of a text. -/
def start (input : Input) : Cursor := ⟨input.chars, ⟨0, 0, 0⟩, ⟨0, input.supply, false⟩⟩

/-- The position of a cursor. -/
def mark (c : Cursor) : Mark := c.place.mark

/-- Makes sure that `n` characters are in sight. -/
def need (n : Nat) (c : Cursor) : Except Problem Cursor := do
  return { c with place := ← c.place.need n c.rest }

/-- The cursor after the next character. -/
def next (c : Cursor) : Cursor :=
  match c.rest with
  | a :: r => ⟨r, c.place.after a⟩
  | [] => c

/-- The cursor after the next `n` characters. -/
def skip : (n : Nat) → Cursor → Cursor
  | 0, c => c
  | n + 1, c => skip n c.next

/-- The cursor after the next character, whatever it is, which is not counted as a line break. -/
def drop (c : Cursor) : Cursor :=
  let m := c.mark
  let place : Place :=
    ⟨⟨m.index + 1, m.line, m.column + 1⟩, { c.place.window with held := c.place.window.held - 1 }⟩
  match c.rest with
  | '\r' :: r => ⟨'\n' :: r, place⟩
  | _ :: r => ⟨r, place⟩
  | [] => ⟨[], place⟩

/-- The characters with a property up to the first one without it, and the cursor there; `taken`
holds those before, last first. -/
def takeFrom (f : Char → Bool) (taken : List Char) :
    (rest : List Char) → Place → Except Problem (List Char × Cursor)
  | [], p => do return (taken.reverse, ⟨[], ← p.need 1 []⟩)
  | c :: r, p => do
    let p ← p.need 1 (c :: r)
    if f c then takeFrom f (c :: taken) r (p.after c) else return (taken.reverse, ⟨c :: r, p⟩)

/-- The characters with a property up to the first one without it, and the cursor there. -/
def takeWhile (f : Char → Bool) (c : Cursor) : Except Problem (List Char × Cursor) :=
  takeFrom f [] c.rest c.place

/-- The cursor after the characters with a property. -/
def dropWhile (f : Char → Bool) (c : Cursor) : Except Problem Cursor := do
  return (← c.takeWhile f).2

/-- Whether the next character is the given one. -/
def isAt (a : Char) (c : Cursor) : Bool := c.rest.head? == some a

end Cursor

/-- Whether a text ends or goes on with a blank or a line break. -/
def endsOrGap : List Char → Bool
  | [] => true
  | c :: _ => isBlank c || isBreak c

/-- Whether a text ends or goes on with a line break. -/
def endsOrBreak : List Char → Bool
  | [] => true
  | c :: _ => isBreak c

/-- Whether a line starts with the given three characters, alone. -/
def isBorder (c : Char) (m : Mark) (rest : List Char) : Bool :=
  m.column == 0 && [c, c, c].isPrefixOf rest && endsOrGap (rest.drop 3)

/-- Whether a document starts or ends here. -/
def atBorder (m : Mark) (rest : List Char) : Bool := isBorder '-' m rest || isBorder '.' m rest

/-- What a line break stands for in a scalar: only the two separators of Unicode stay. -/
def breakText (c : Char) : Char := if c == '\u2028' || c == '\u2029' then c else '\n'

end LineCalc.Yaml
