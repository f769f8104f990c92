import LineCalc.Yaml.Token.Property
/-!
# Tokens of YAML texts

The tokens of a text.  Indentation opens and closes block collections, so their starts and ends
are tokens too.  A key without `?` is only known for one when its colon comes: the place where it
may have started is remembered, and the tokens that open it are put there afterwards.  A token is
handed out when two more have been found and it is settled whether it starts a key.
-/
namespace LineCalc.Yaml

/-- A place where a key may have started. -/
structure KeyStart where
  /-- Whether nothing else than a key can stand there. -/
  isRequired : Bool
  /-- The number of tokens before it. -/
  position : Nat
  mark : Mark

/-- The key places of one level of brackets. -/
structure KeyLevel where
  /-- The last place where a key may have started. -/
  key : Option KeyStart
  /-- The number of tokens before the last key place, or before the opening bracket if there was
  none. -/
  lastPosition : Nat

/-- The tokens found so far and what decides about the next one. -/
structure Scanner where
  cursor : Cursor
  tokens : Array Token
  /-- The number of tokens that have been handed out. -/
  handedOut : Nat
  /-- The column of the innermost block collection, and those around it. -/
  indent : Int
  indents : List Int
  /-- Whether a key may start here. -/
  keyAllowed : Bool
  /-- The key places here and in the brackets around. -/
  level : KeyLevel
  outerLevels : List KeyLevel
  /-- The numbers of tokens that are held back while a key place is live, each with the number of
  brackets around that key place. -/
  waiting : List (Nat × Nat)
  isDone : Bool

namespace Scanner

/-- The state before the first token. -/
def start (input : Input) : Scanner :=
  ⟨.start input, #[], 0, -1, [], true, ⟨none, 0⟩, [], [], false⟩

/-- Whether the position is inside brackets. -/
def inFlow (s : Scanner) : Bool := !s.outerLevels.isEmpty

/-- The last place where a key may have started. -/
def key (s : Scanner) : Option KeyStart := s.level.key

/-- The state with another key place. -/
def setKey (s : Scanner) (k : Option KeyStart) : Scanner :=
  { s with level := { s.level with key := k } }

/-- Adds a token at the end. -/
def push (s : Scanner) (kind : TokenKind) (mark : Mark) : Scanner :=
  { s with tokens := s.tokens.push ⟨kind, mark⟩ }

/-- Puts a token before the one of the given number, or at the end if that one has been handed
out. -/
def insert (s : Scanner) (position : Nat) (t : Token) : Scanner :=
  { s with
    tokens := if position < s.handedOut then s.tokens.push t
      else s.tokens.insertIdxIfInBounds position t }

/-- Adds a token at the current position and passes its `n` characters. -/
def take (s : Scanner) (kind : TokenKind) (n : Nat) : Scanner :=
  { s.push kind s.cursor.mark with cursor := s.cursor.skip n }

/-- A problem at the current position. -/
def problem (s : Scanner) (c : Cause) : Problem := .inText c s.cursor.mark s.cursor.mark

/-! ## Indentation -/

/-- The state after closing the block collections that are indented by more than `column`. -/
def closeBlocks (column : Int) (mark : Mark) : (indents : List Int) → Scanner → Scanner
  | [], s => s
  | i :: is, s =>
    if column < s.indent then
      closeBlocks column mark is { s.push .blockEnd mark with indent := i, indents := is }
    else s

/-- Closes the block collections that are indented by more than `column`. -/
def unroll (s : Scanner) (column : Int) : Scanner :=
  if s.inFlow then s else closeBlocks column s.cursor.mark s.indents s

/-- How deep collections can be nested. -/
def maxDepth : Nat := 10000

/-- Opens a block collection at a column, unless one is open there already; its token is put at
`position`. -/
def roll (s : Scanner) (mark : Mark) (position : Nat) (kind : TokenKind) :
    Except Problem Scanner :=
  if s.inFlow || (mark.column : Int) ≤ s.indent then .ok s
  else if maxDepth ≤ s.indents.length then .error (s.problem .tooDeep)
  else .ok
    { s.insert position ⟨kind, mark⟩ with
      indent := mark.column
      indents := s.indent :: s.indents }

/-! ## Places of keys -/

/-- The problem of a key without its colon. -/
def missingColon (s : Scanner) (k : KeyStart) : Problem := .inText .noColon k.mark s.cursor.mark

/-- No longer holds back the token of a number. -/
def release (s : Scanner) (position : Nat) : Scanner :=
  { s with waiting := s.waiting.filter (·.1 != position) }

/-- Forgets where a key may have started, if none had to. -/
def forgetKey (s : Scanner) : Except Problem Scanner :=
  match s.key with
  | some k =>
    if k.isRequired then .error (s.missingColon k) else .ok ((s.setKey none).release k.position)
  | none => .ok s

/-- Remembers that a key may start here. -/
def saveKey (s : Scanner) : Except Problem Scanner :=
  if s.keyAllowed then do
    let required := !s.inFlow && s.indent == s.cursor.mark.column
    let s ← s.forgetKey
    let position := s.tokens.size
    return { s.release position with
      level := ⟨some ⟨required, position, s.cursor.mark⟩, position⟩
      waiting := (position, s.outerLevels.length) :: s.waiting }
  else .ok s

/-- Whether a key that started there can still get its colon: it must do so on its line and within
1024 characters. -/
def isLive (s : Scanner) (k : KeyStart) : Bool :=
  s.cursor.mark.line ≤ k.mark.line && s.cursor.mark.index ≤ k.mark.index + 1024

/-! ## Blanks and comments -/

/-- How far a comment is looked for. -/
def maxAhead : Nat := 512

/-- How many characters are looked at for a comment from the `n`th on, where only blanks and line
breaks may stand before it, and whether it comes.  Line breaks of more than one byte end the
search. -/
def ahead (n : Nat) : List Char → Nat × Bool
  | [] => (min (n + 1) maxAhead, false)
  | c :: r =>
    if maxAhead ≤ n then (maxAhead, false)
    else if isBlank c || c == '\n' then ahead (n + 1) r
    else if c == '\r' then ahead (n + 2) r
    else (if isBreak c then n + 2 else n + 1, c == '#')

/-- Passes blanks and line breaks. -/
def passGap : (rest : List Char) → Place → Except Problem Cursor
  | [], p => .ok ⟨[], p⟩
  | c :: r, p => do
    if isBlank c || isBreak c then passGap r (← p.afterGap c r) else return ⟨c :: r, p⟩

/-- Passes a comment and those on the lines after it, `fuel` of them at most.  Only here tabs may
indent a line. -/
def passComments : (fuel : Nat) → Cursor → Except Problem Cursor
  | 0, c => .ok c
  | fuel + 1, c => do
    let c ← c.dropWhile (!isBreak ·)
    let (n, comes) := match c.rest with
      | '\n' :: r => ahead 1 r
      | '\r' :: r => ahead 2 r
      | _ => (2, false)
    let place ← c.place.needEach n c.rest
    if comes then passComments fuel (← passGap c.rest place) else return { c with place }

/-- Passes blanks, comments and line breaks up to the next token, `fuel` lines at most.  As long as
the window starts with a byte order mark, the first character of a line counts as one. -/
def skipGaps : (fuel : Nat) → Scanner → Except Problem Scanner
  | 0, s => .ok s
  | fuel + 1, s => do
    let cur ← s.cursor.need 1
    let isMark := cur.mark.column == 0 && cur.place.window.startsWithMark
    let cur := if isMark then cur.drop else cur
    let cur ← cur.dropWhile fun c => c == ' ' || (c == '\t' && (s.inFlow || !s.keyAllowed))
    let cur ← if cur.isAt '#' then passComments (fuel + 1) cur else pure cur
    if cur.rest.head?.any isBreak then
      let cur ← cur.need 2
      skipGaps fuel { s with cursor := cur.next, keyAllowed := s.keyAllowed || !s.inFlow }
    else return { s with cursor := cur }

/-- Passes a comment on the line of the last token. -/
def skipComment (s : Scanner) : Except Problem Scanner := do
  let cur := s.cursor
  let blanks := (cur.rest.takeWhile isBlank).length
  let place ← cur.place.needEach (min (blanks + 1) maxAhead) cur.rest
  let cur := { cur with place }
  if blanks < maxAhead && (cur.rest.drop blanks).head? == some '#' then
    return { s with cursor := ← cur.dropWhile (!isBreak ·) }
  else return { s with cursor := cur }

/-! ## Tokens -/

/-- The end of the text, which is the start of a line. -/
def takeEnd (s : Scanner) : Except Problem Scanner := do
  let m := s.cursor.mark
  let m := if m.column = 0 then m else ⟨m.index, m.line + 1, 0⟩
  let s := { s with cursor := ⟨[], { s.cursor.place with mark := m }⟩ }.unroll (-1)
  let s ← s.forgetKey
  return { s.push .streamEnd m with keyAllowed := false, isDone := true }

/-- The border of a document. -/
def takeBorder (s : Scanner) (kind : TokenKind) : Except Problem Scanner := do
  let s ← (s.unroll (-1)).forgetKey
  return { s.take kind 3 with keyAllowed := false }

/-- A directive. -/
def takeDirective (s : Scanner) : Except Problem Scanner := do
  let s ← (s.unroll (-1)).forgetKey
  let (kind, cursor) ← takeDirectiveLine s.cursor
  return { s.push kind s.cursor.mark with cursor, keyAllowed := false }

/-- An opening bracket. -/
def takeOpening (s : Scanner) (kind : TokenKind) : Except Problem Scanner := do
  let s ← s.saveKey
  if maxDepth ≤ s.outerLevels.length then throw (s.problem .tooDeep)
  return { s.take kind 1 with
    level := ⟨none, s.tokens.size⟩, outerLevels := s.level :: s.outerLevels, keyAllowed := true }

/-- A closing bracket. -/
def takeClosing (s : Scanner) (kind : TokenKind) : Except Problem Scanner := do
  let s ← s.forgetKey
  let s := { s.take kind 1 with keyAllowed := false }
  match s.outerLevels with
  | [] => return s
  | outer :: others =>
    return { s.release s.level.lastPosition with level := outer, outerLevels := others }

/-- A comma between the entries of a collection in brackets. -/
def takeComma (s : Scanner) : Except Problem Scanner := do
  let s ← s.forgetKey
  return { s.take .flowEntry 1 with keyAllowed := true }

/-- The dash before an entry of a block sequence. -/
def takeDash (s : Scanner) : Except Problem Scanner := do
  if !s.inFlow && !s.keyAllowed then throw (s.problem .noSequenceEntry)
  let s ← s.roll s.cursor.mark s.tokens.size .blockSequenceStart
  let s ← s.forgetKey
  return { s.take .blockEntry 1 with keyAllowed := true }

/-- The question mark before a key. -/
def takeQuestion (s : Scanner) : Except Problem Scanner := do
  if !s.inFlow && !s.keyAllowed then throw (s.problem .noMappingKey)
  let s ← s.roll s.cursor.mark s.tokens.size .blockMappingStart
  let s ← s.forgetKey
  return { s.take .key 1 with keyAllowed := !s.inFlow }

/-- The key place that a colon belongs to, if there is one. -/
def keyOfColon (s : Scanner) : Except Problem (Option KeyStart) :=
  match s.key with
  | none => .ok none
  | some k =>
    if s.isLive k then .ok (some k)
    else if k.isRequired then .error (s.missingColon k)
    else .ok none

/-- The colon after a key: the key starts where one may have started, or the colon stands for
itself. -/
def takeColon (s : Scanner) : Except Problem Scanner := do
  match ← s.keyOfColon with
  | some k =>
    let s ← (s.insert k.position ⟨.key, k.mark⟩).roll k.mark k.position .blockMappingStart
    return { ((s.take .value 1).setKey none).release k.position with keyAllowed := false }
  | none =>
    if !s.inFlow && !s.keyAllowed then throw (s.problem .noMappingValue)
    let s ← s.roll s.cursor.mark s.tokens.size .blockMappingStart
    return { (s.take .value 1).setKey none with keyAllowed := !s.inFlow }

/-- An anchor, or a reference to one. -/
def takeAnchor (s : Scanner) (kind : Bytes → TokenKind) : Except Problem Scanner := do
  let s ← s.saveKey
  let (name, cursor) ← takeAnchorName s.cursor.mark s.cursor.next
  return { s.push (kind name) s.cursor.mark with cursor, keyAllowed := false }

/-- A tag. -/
def takeTagToken (s : Scanner) : Except Problem Scanner := do
  let s ← s.saveKey
  let (kind, cursor) ← takeTag s.cursor
  return { s.push kind s.cursor.mark with cursor, keyAllowed := false }

/-- A block scalar. -/
def takeBlock (s : Scanner) (isFolded : Bool) : Except Problem Scanner := do
  let s ← s.forgetKey
  let r ← scanBlock isFolded s.indent s.cursor.mark s.cursor.next
  return { s.push (.scalar true (encode r.text)) s.cursor.mark with
    cursor := r.cursor, keyAllowed := true }

/-- A scalar in quotes. -/
def takeQuoted (s : Scanner) (quote : Char) : Except Problem Scanner := do
  let s ← s.saveKey
  let cur ← s.cursor.next.need 4
  let r ← scanQuoted quote s.cursor.mark .none [] cur.rest cur.place
  return { s.push (.scalar true (encode r.text)) s.cursor.mark with
    cursor := r.cursor, keyAllowed := false }

/-- A scalar without quotes. -/
def takePlain (s : Scanner) : Except Problem Scanner := do
  let s ← s.saveKey
  let cur ← s.cursor.need 4
  let r ← scanPlain s.inFlow (s.indent + 1) cur.mark .none [] cur.rest cur.place
  return { s.push (.scalar false (encode r.text)) s.cursor.mark with
    cursor := r.cursor, keyAllowed := r.endsLine }

/-- Whether a scalar without quotes can start with the character `c` before `r`. -/
def startsPlain (inFlow : Bool) (c : Char) (r : List Char) : Bool :=
  if c == '-' then !endsOrBlank r
  else if c == '?' || c == ':' then !inFlow && !endsOrGap r
  else !isBlank c && !isBreak c && !isIndicator c

/-- The token that starts with the character `c` before `r`. -/
def takeToken (s : Scanner) (c : Char) (r : List Char) : Except Problem Scanner :=
  match c with
  | '[' => s.takeOpening .flowSequenceStart
  | '\x7b' => s.takeOpening .flowMappingStart
  | ']' => s.takeClosing .flowSequenceEnd
  | '\x7d' => s.takeClosing .flowMappingEnd
  | ',' => s.takeComma
  | '*' => s.takeAnchor .reference
  | '&' => s.takeAnchor .anchor
  | '!' => s.takeTagToken
  | '\'' => s.takeQuoted '\''
  | '"' => s.takeQuoted '"'
  | _ =>
    if c == '-' && endsOrGap r then s.takeDash
    else if c == '?' && (s.inFlow || endsOrGap r) then s.takeQuestion
    else if c == ':' && (s.inFlow || endsOrGap r) then s.takeColon
    else if c == '|' && !s.inFlow then s.takeBlock false
    else if c == '>' && !s.inFlow then s.takeBlock true
    else if startsPlain s.inFlow c r then s.takePlain
    else .error (s.problem .noToken)

/-- Whether the last character between two states, blanks apart, is a line break. -/
def endsAfterBreak (before after : Scanner) : Bool :=
  let passed := before.cursor.rest.take (after.cursor.mark.index - before.cursor.mark.index)
  (passed.reverse.find? (!isBlank ·)).any isBreak

/-- Finds the next token, and with it those that indentation calls for.  A comment on the line of
the token is passed too, except after a dash, where it may belong to what follows. -/
def step (size : Nat) (s : Scanner) : Except Problem Scanner := do
  let s ← skipGaps (size + 1) s
  let s := s.unroll s.cursor.mark.column
  let s := { s with cursor := ← s.cursor.need 4 }
  match s.cursor.rest with
  | [] => s.takeEnd
  | c :: r =>
    if c == '%' && s.cursor.mark.column == 0 then s.takeDirective
    else if isBorder '-' s.cursor.mark (c :: r) then s.takeBorder .documentStart
    else if isBorder '.' s.cursor.mark (c :: r) then s.takeBorder .documentEnd
    else
      let t ← s.takeToken c r
      if (c == '-' && endsOrGap r) || s.endsAfterBreak t then return t else t.skipComment

/-! ## Handing out -/

/-- The key place with the given number of brackets around it. -/
def keyAt (s : Scanner) (depth : Nat) : Option KeyStart :=
  if depth = s.outerLevels.length then s.key
  else (s.outerLevels.reverse[depth]?).bind (·.key)

/-- The state without the key place that has the given number of brackets around it. -/
def dropKeyAt (s : Scanner) (depth : Nat) : Scanner :=
  if depth = s.outerLevels.length then s.setKey none
  else
    let drop : KeyLevel → KeyLevel := fun l => { l with key := none }
    { s with outerLevels := s.outerLevels.modify (s.outerLevels.length - 1 - depth) drop }

/-- Whether enough is known to hand out the next token: two more must have been found, unless the
text has ended. -/
def seesAhead (s : Scanner) : Bool := s.isDone || s.handedOut + 2 < s.tokens.size

/-- Hands out the next token, unless more must be found first or it is held back. -/
def handOut? (s : Scanner) : Except Problem (Option Scanner) :=
  let next := { s with handedOut := s.handedOut + 1 }
  if !s.seesAhead then .ok none
  else match s.waiting.lookup s.handedOut with
    | none => .ok (some next)
    | some depth =>
      match s.keyAt depth with
      | none => .ok (some next)
      | some k =>
        if s.isLive k then .ok none
        else if k.isRequired then .error (s.missingColon k)
        else .ok (some (next.dropKeyAt depth))

/-- Finds tokens and hands them out, up to the end of the text or the first problem, `fuel` times
at most. -/
def run (size : Nat) : (fuel : Nat) → Scanner → Scanner × Option Problem
  | 0, s => (s, none)
  | fuel + 1, s =>
    if s.isDone && s.tokens.size ≤ s.handedOut then (s, none)
    else match s.handOut? with
      | .error p => (s, some p)
      | .ok (some s') => run size fuel s'
      | .ok none =>
        match s.step size with
        | .ok s' => run size fuel s'
        | .error p => (s, some p)

end Scanner

/-! ## Token streams -/

/-- The tokens of a text that can be handed out, and the problem after them. -/
structure TokenStream where
  tokens : Array Token
  problem : Option Problem

namespace TokenStream

/-- The tokens of a text.  Every step passes a character or ends the text, and finds at most three
tokens more than the collections that it closes. -/
def ofInput (input : Input) : TokenStream :=
  let size := input.chars.length
  let (s, p) := Scanner.run size (8 * size + 16) (.start input)
  ⟨s.tokens.take s.handedOut, p⟩

/-- The token of a number.  After the last token the end of the text repeats. -/
def get (t : TokenStream) (i : Nat) : Except Problem Token :=
  match t.tokens[i]? with
  | some token => .ok token
  | none =>
    match t.problem with
    | some p => .error p
    | none => .ok (t.tokens.back?.getD ⟨.streamEnd, ⟨0, 0, 0⟩⟩)

end TokenStream

end LineCalc.Yaml
