import LineCalc.Yaml.Token.Block
/-!
# Anchors, tags and directives

A node may be given a name by an anchor and a type by a tag.  A tag is written out, or starts with
a handle that stands for the start of its name; directives before a document state the version of
the language and the meanings of handles.
-/
namespace LineCalc.Yaml

/-- A problem at the cursor with what started at `start`. -/
def Cursor.problem (c : Cursor) (start : Mark) (cause : Cause) : Problem :=
  .inText cause start c.mark

/-! ## Names of anchors -/

/-- The characters of names. -/
def isNameChar (c : Char) : Bool :=
  c.toNat < 0x80 && (Bytes.isWord (UInt8.ofNat c.toNat) || c == '-')

/-- Whether the name of an anchor may end before these characters. -/
def endsName : List Char → Bool
  | [] => true
  | c :: _ => isBlank c || isBreak c ||
    ['?', ':', ',', ']', '\x7d', '%', '@', Char.ofNat 0x60].contains c

/-- Reads the name of an anchor after its mark. -/
def takeAnchorName (start : Mark) (c : Cursor) : Except Problem (Bytes × Cursor) := do
  let (name, c) ← c.takeWhile isNameChar
  if name.isEmpty || !endsName c.rest then throw (c.problem start .noAnchorName)
  return (encode name, c)

/-! ## Tags -/

/-- The characters of tags, percent signs apart. -/
def isTagChar (c : Char) : Bool :=
  isNameChar c || [';', '/', '?', ':', '@', '&', '=', '+', '$', ',', '.', '!', '~', '*', '\'', '(',
    ')', '[', ']'].contains c

/-- Reads a percent sign and the two hexadecimal digits of an octet. -/
def takeOctet (start : Mark) (c : Cursor) : Except Problem (UInt8 × Cursor) := do
  let c ← c.need 3
  match c.rest with
  | '%' :: r =>
    match hexCode? 2 r with
    | some n => return (UInt8.ofNat n, c.skip 3)
    | none => throw (c.problem start .noTagOctet)
  | _ => throw (c.problem start .noTagOctet)

/-- Reads the octets of a character after its first one. -/
def takeOctets (start : Mark) : (n : Nat) → Cursor → Except Problem (Bytes × Cursor)
  | 0, c => .ok ([], c)
  | n + 1, c => do
    let (b, c') ← takeOctet start c
    if !isTrailing b then throw (c.problem start .tagTrailingOctet)
    let (bs, c') ← takeOctets start n c'
    return (b :: bs, c')

/-- Reads a character that is written as octets. -/
def takeEscapedChar (start : Mark) (c : Cursor) : Except Problem (Bytes × Cursor) := do
  let (b, c') ← takeOctet start c
  let some (width, _) := leading? b | throw (c.problem start .tagLeadingOctet)
  let (bs, c') ← takeOctets start (width - 1) c'
  return (b :: bs, c')

/-- Reads the characters of a tag, `fuel` of them at most. -/
def takeTagChars (start : Mark) (done : Bytes) :
    (fuel : Nat) → Cursor → Except Problem (Bytes × Cursor)
  | 0, c => .ok (done, c)
  | fuel + 1, c => do
    let c ← c.need 1
    match c.rest with
    | '%' :: _ =>
      let (bs, c) ← takeEscapedChar start c
      takeTagChars start (done ++ bs) fuel c
    | a :: _ =>
      if isTagChar a then takeTagChars start (done ++ encode [a]) fuel c.next else return (done, c)
    | [] => return (done, c)

/-- Reads the name in a tag after its start, of which `head` has been read already. -/
def takeTagName (start : Mark) (head : Option Bytes) (c : Cursor) :
    Except Problem (Bytes × Cursor) := do
  let (name, c') ← takeTagChars start (head.getD []) (c.rest.length + 1) c
  if head.isNone && c'.mark.index = c.mark.index then throw (c'.problem start .noTagName)
  return (name, c')

/-- Reads what may be a handle: an exclamation mark, a name and perhaps another exclamation
mark. -/
def takeHandle (start : Mark) (inDirective : Bool) (c : Cursor) :
    Except Problem (Bytes × Bool × Cursor) := do
  let c ← c.need 1
  if !c.isAt '!' then throw (c.problem start .noTagMark)
  let (name, c) ← c.next.takeWhile isNameChar
  if c.isAt '!' then return (encode name, true, c.next)
  if inDirective && !name.isEmpty then throw (c.problem start .noTagMark)
  return (encode name, false, c)

/-- Reads a tag. -/
def takeTag (c : Cursor) : Except Problem (TokenKind × Cursor) := do
  let start := c.mark
  let c ← c.need 2
  let (kind, c) ← match c.rest with
    | '!' :: '<' :: _ => do
      let (name, c) ← takeTagName start none (c.skip 2)
      if !c.isAt '>' then throw (c.problem start .noTagEnd)
      pure (TokenKind.tag [] name, c.next)
    | _ => do
      let (name, isHandle, c) ← takeHandle start false c
      if isHandle then
        let (suffix, c) ← takeTagName start none c
        pure (.tag (utf8 "!" ++ name ++ utf8 "!") suffix, c)
      else
        let (suffix, c) ← takeTagName start (some name) c
        pure (if suffix.isEmpty then .tag [] "!" else .tag "!" suffix, c)
  let c ← c.need 1
  if !endsOrGap c.rest then throw (c.problem start .noWhitespaceOrBreak)
  return (kind, c)

/-! ## Directives -/

/-- Reads a number of at most two digits. -/
def takeVersionNumber (start : Mark) (c : Cursor) : Except Problem (Nat × Cursor) := do
  let (ds, c') ← c.takeWhile Char.isDigit
  if 2 < ds.length then throw ((c.skip 2).problem start .longVersionNumber)
  if ds.isEmpty then throw (c'.problem start .noVersionNumber)
  return (ds.foldl (fun n d => 10 * n + (d.toNat - 48)) 0, c')

/-- Reads a version. -/
def takeVersion (start : Mark) (c : Cursor) : Except Problem (TokenKind × Cursor) := do
  let (major, c) ← takeVersionNumber start (← c.dropWhile isBlank)
  if !c.isAt '.' then throw (c.problem start .noVersionPoint)
  let (minor, c) ← takeVersionNumber start c.next
  return (.version major minor, c)

/-- Reads a handle and what it stands for. -/
def takeTagHandle (start : Mark) (c : Cursor) : Except Problem (TokenKind × Cursor) := do
  let (name, isNamed, c) ← takeHandle start true (← c.dropWhile isBlank)
  let c ← c.need 1
  if !c.rest.head?.any isBlank then throw (c.problem start .noWhitespace)
  let (stem, c) ← takeTagName start none (← c.dropWhile isBlank)
  let c ← c.need 1
  if !endsOrGap c.rest then throw (c.problem start .noWhitespaceOrBreak)
  return (.tagHandle (if isNamed then utf8 "!" ++ name ++ utf8 "!" else utf8 "!") stem, c)

/-- Reads a directive with the rest of its line. -/
def takeDirectiveLine (c : Cursor) : Except Problem (TokenKind × Cursor) := do
  let start := c.mark
  let (name, c) ← c.next.takeWhile isNameChar
  if name.isEmpty then throw (c.problem start .noDirectiveName)
  if !endsOrGap c.rest then throw (c.problem start .directiveCharacter)
  let (kind, c) ←
    if name = ['Y', 'A', 'M', 'L'] then takeVersion start c
    else if name = ['T', 'A', 'G'] then takeTagHandle start c
    else throw (c.problem start .unknownDirective)
  return (kind, ← passLineEnd start c)

end LineCalc.Yaml
