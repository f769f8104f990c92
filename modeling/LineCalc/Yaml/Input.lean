import LineCalc.Yaml.Problem
/-!
# Characters of YAML texts

The characters of a text in UTF-8, or in UTF-16 if it starts with a byte order mark of that
encoding.  Control characters other than tab and line breaks are refused.  A text is read in
portions, and what is wrong with its bytes is only found when the reading comes to it.
-/
namespace LineCalc.Yaml

/-- The characters that a text may hold. -/
def isAllowed (n : Nat) : Bool :=
  n == 0x09 || n == 0x0a || n == 0x0d || (0x20 ≤ n && n ≤ 0x7e) || n == 0x85 ||
    (0xa0 ≤ n && n ≤ 0xd7ff) || (0xe000 ≤ n && n ≤ 0xfffd) || (0x10000 ≤ n && n ≤ 0x10ffff)

/-- A character and the number of bytes that it takes up. -/
structure Piece where
  char : Char
  width : Nat

/-- Something wrong with bytes, and the number of bytes that show it; `none` if only the end of
the text does. -/
structure Fault where
  cause : Cause
  width : Option Nat

/-- The character numbered `n`, if a text may hold it. -/
def allowed (n width : Nat) : Except Fault Piece :=
  if isAllowed n then .ok ⟨Char.ofNat n, width⟩ else .error ⟨.controlCharacter, some width⟩

/-- The pieces of a text, up to the first fault. -/
structure Pieces where
  pieces : List Piece
  fault : Option Fault

/-! ## UTF-8 -/

/-- The number of bytes that a leading byte announces, and the bits that it holds itself. -/
def leading? (b : UInt8) : Option (Nat × Nat) :=
  if b < 0x80 then some (1, b.toNat)
  else if 0xc0 ≤ b && b < 0xe0 then some (2, b.toNat - 0xc0)
  else if 0xe0 ≤ b && b < 0xf0 then some (3, b.toNat - 0xe0)
  else if 0xf0 ≤ b && b < 0xf8 then some (4, b.toNat - 0xf0)
  else none

/-- Whether a byte can follow a leading one. -/
def isTrailing (b : UInt8) : Bool := 0x80 ≤ b && b < 0xc0

/-- The least character that needs the given number of bytes. -/
def leastOf : Nat → Nat
  | 2 => 0x80
  | 3 => 0x800
  | 4 => 0x10000
  | _ => 0

/-- Whether no character has this number. -/
def isNoCharacter (n : Nat) : Bool := (0xd800 ≤ n && n ≤ 0xdfff) || 0x10ffff < n

/-- The character that a leading byte and the bytes after it write. -/
def utf8Char (b : UInt8) (r : Bytes) : Except Fault Piece := do
  let some (width, bits) := leading? b | throw ⟨.leadingOctet, some 1⟩
  let tail := r.take (width - 1)
  if tail.length + 1 < width then throw ⟨.incompleteSequence, none⟩
  if !tail.all isTrailing then throw ⟨.trailingOctet, some width⟩
  let n := tail.foldl (fun n c => n * 64 + (c.toNat - 0x80)) bits
  if n < leastOf width then throw ⟨.sequenceLength, some width⟩
  if isNoCharacter n then throw ⟨.unicodeCharacter, some width⟩
  allowed n width

/-- The pieces of a text in UTF-8; `skip` bytes belong to a character already read, and `done`
holds the pieces so far, last first. -/
def decodeUtf8 (done : List Piece) : (skip : Nat) → Bytes → Pieces
  | _, [] => ⟨done.reverse, none⟩
  | skip + 1, _ :: r => decodeUtf8 done skip r
  | 0, b :: r =>
    match utf8Char b r with
    | .ok p => decodeUtf8 (p :: done) (p.width - 1) r
    | .error f => ⟨done.reverse, some f⟩

/-! ## UTF-16 -/

/-- The number that two bytes write. -/
def unit (littleEndian : Bool) (a b : UInt8) : Nat :=
  if littleEndian then a.toNat + 256 * b.toNat else b.toNat + 256 * a.toNat

/-- The character that a unit and the bytes after it write. -/
def utf16Char (littleEndian : Bool) (n : Nat) (r : Bytes) : Except Fault Piece :=
  if 0xdc00 ≤ n && n < 0xe000 then .error ⟨.unexpectedLowSurrogate, some 2⟩
  else if 0xd800 ≤ n && n < 0xdc00 then
    match r with
    | a :: b :: _ =>
      let m := unit littleEndian a b
      if 0xdc00 ≤ m && m < 0xe000 then
        allowed (0x10000 + (n - 0xd800) * 0x400 + (m - 0xdc00)) 4
      else .error ⟨.expectedLowSurrogate, some 4⟩
    | _ => .error ⟨.incompletePair, none⟩
  else allowed n 2

/-- The pieces of a text in UTF-16; `skip` says that the next unit belongs to a character already
read. -/
def decodeUtf16 (littleEndian : Bool) (done : List Piece) : (skip : Bool) → Bytes → Pieces
  | _, [] => ⟨done.reverse, none⟩
  | _, [_] => ⟨done.reverse, some ⟨.incompleteUnit, none⟩⟩
  | true, _ :: _ :: r => decodeUtf16 littleEndian done false r
  | false, a :: b :: r =>
    match utf16Char littleEndian (unit littleEndian a b) r with
    | .ok p => decodeUtf16 littleEndian (p :: done) (p.width == 4) r
    | .error f => ⟨done.reverse, some f⟩

/-! ## Portions -/

/-- The number of bytes that are read at once. -/
def portionSize : Nat := 512

/-- A text as it is read: its characters, and how many of them each portion brings, or what is
wrong with the portion. -/
structure Input where
  chars : List Char
  supply : List (Except Cause Nat)

/-- The portions of a text.  Each holds as many whole characters as fit into its bytes; `room`
bytes are left in the current one, which has `count` characters so far. -/
def portions (fault : Option Fault) : (room count : Nat) → List Piece → List (Except Cause Nat)
  | room, count, p :: ps =>
    if p.width ≤ room then portions fault (room - p.width) (count + 1) ps
    else .ok count :: portions fault (portionSize - p.width) 1 ps
  | room, count, [] =>
    match fault with
    | none => [.ok count]
    | some f => if f.width.any (· ≤ room) then [.error f.cause] else [.ok count, .error f.cause]

/-- The characters of pieces, last first.  A carriage return stands for itself and the line feed
after it; alone it is a line feed. -/
def joinBreaks (done : List Char) : List Char → List Char
  | '\r' :: '\n' :: r => joinBreaks ('\r' :: done) r
  | c :: r => joinBreaks ((if c == '\r' then '\n' else c) :: done) r
  | [] => done

/-- The text of pieces, after a byte order mark of the given size. -/
def Pieces.toInput (ps : Pieces) (markSize : Nat) : Input where
  chars := (joinBreaks [] (ps.pieces.map (·.char))).reverse
  supply := portions ps.fault (portionSize - markSize) 0 ps.pieces

/-- The text that bytes write, without the byte order mark at its start. -/
def Input.ofBytes (s : Bytes) : Input :=
  match s with
  | 0xff :: 0xfe :: r => (decodeUtf16 true [] false r).toInput 2
  | 0xfe :: 0xff :: r => (decodeUtf16 false [] false r).toInput 2
  | 0xef :: 0xbb :: 0xbf :: r => (decodeUtf8 [] 0 r).toInput 3
  | _ => (decodeUtf8 [] 0 s).toInput 0

end LineCalc.Yaml
