import LineCalc.Yaml.Token.Scan
/-!
# YAML documents

The tree of the first document of a text.  A node that is named by an anchor can be referred to
afterwards, and even inside itself, so a reference holds the place of the node and not the node.
-/
namespace LineCalc.Yaml

/-- A value in a document, with the number of its line. -/
inductive Node where
  | scalar (line : Nat) (tag : Tag) (text : Bytes)
  | sequence (line : Nat) (tag : Tag) (items : List Node)
  | mapping (line : Nat) (tag : Tag) (pairs : List (Node × Node))
  /-- A reference to the node that starts at the token numbered `target`; its own token is
  numbered `place`. -/
  | reference (line : Nat) (name : Bytes) (place target : Nat)

namespace Node

/-- The number of a node's line. -/
def line : Node → Nat
  | scalar l _ _ => l
  | sequence l _ _ => l
  | mapping l _ _ => l
  | reference l _ _ _ => l

/-- The text of a scalar and the name in a reference; empty for collections. -/
def text : Node → Bytes
  | scalar _ _ s => s
  | sequence _ _ _ => []
  | mapping _ _ _ => []
  | reference _ name _ _ => name

/-- The node that stands where nothing is written. -/
def missing (m : Mark) : Node := .scalar (m.line + 1) .null []

end Node

/-- A document: its tree, and the nodes in it that have an anchor, by their places. -/
structure Document where
  root : Node
  anchored : List (Nat × Node)

/-- The node that a node stands for: the one that a reference names, or the node itself. -/
def Document.target (doc : Document) (n : Node) : Node :=
  match n with
  | .reference _ _ _ target => (doc.anchored.lookup target).getD n
  | _ => n

/-! ## Reading tokens -/

/-- What has been read so far. -/
structure Progress where
  /-- The number of the next token. -/
  next : Nat
  /-- What tag handles stand for. -/
  handles : List (Bytes × Bytes)
  /-- The places of the last nodes with each anchor, last first. -/
  anchors : List (Bytes × Nat)
  /-- The nodes with anchors that have been read. -/
  anchored : List (Nat × Node)

/-- Reading moves on in the tokens, up to a problem. -/
abbrev Reader := StateT Progress (Except Problem)

namespace Reader

/-- The next token. -/
def peek (ts : TokenStream) : Reader Token := fun p => do return (← ts.get p.next, p)

/-- Passes the next token. -/
def pass : Reader Unit := modify fun p => { p with next := p.next + 1 }

/-- Whether the next token is of one of the given kinds. -/
def isAt (ts : TokenStream) (kinds : List TokenKind) : Reader Bool := do
  return kinds.contains (← peek ts).kind

end Reader

/-! ## Anchors and tags -/

/-- What stands before a node: its anchor and its tag. -/
structure Properties where
  anchor : Option Bytes := none
  /-- The full tag; empty if there is none. -/
  tag : Bytes := []

namespace Properties

/-- The start of the full names of common tags. -/
def commonStem : Bytes := "tag:yaml.org,2002:"

/-- The short name of a tag. -/
def shortName (s : Bytes) : Bytes :=
  if commonStem.isPrefixOf s then utf8 "!!" ++ s.drop commonStem.length else s

/-- The type that the tag states, or if it states none, the one that the node has by itself. -/
def typeOr (ps : Properties) (own : Tag) : Tag :=
  if ps.tag.isEmpty || ps.tag == utf8 "!" then own else .ofName (shortName ps.tag)

/-- Whether nothing stands before the node. -/
def isEmpty (ps : Properties) : Bool := ps.anchor.isNone && ps.tag.isEmpty

end Properties

namespace Reader

/-- Reads an anchor, if it is there. -/
def anchor? (ts : TokenStream) : Reader (Option Bytes) := do
  match (← peek ts).kind with
  | .anchor name =>
    pass
    return some name
  | _ => return none

/-- Reads a tag, if it is there: its handle, its name and its position. -/
def tag? (ts : TokenStream) : Reader (Option (Bytes × Bytes × Mark)) := do
  let t ← peek ts
  match t.kind with
  | .tag handle suffix =>
    pass
    return some (handle, suffix, t.mark)
  | _ => return none

/-- The full name of a tag of a node that started at `start`. -/
def fullTag (start : Mark) : Option (Bytes × Bytes × Mark) → Reader Bytes
  | none => return []
  | some (handle, suffix, m) => do
    if handle.isEmpty then return suffix
    match (← get).handles.lookup handle with
    | some stem => return stem ++ suffix
    | none => throw (.inStructure .unknownTagHandle start m)

/-- Reads an anchor and a tag, in either order, as far as they are there. -/
def properties (ts : TokenStream) : Reader Properties := do
  let start := (← peek ts).mark
  match ← anchor? ts with
  | some name =>
    let tag ← tag? ts
    let _ ← peek ts
    return ⟨some name, ← fullTag start tag⟩
  | none =>
    match ← tag? ts with
    | some tag =>
      let name ← anchor? ts
      let _ ← peek ts
      return ⟨name, ← fullTag start (some tag)⟩
    | none => return ⟨none, []⟩

/-- Remembers that the node at a place has an anchor, from its start on. -/
def bind (ps : Properties) (place : Nat) : Reader Unit :=
  match ps.anchor with
  | some name => modify fun p => { p with anchors := (name, place) :: p.anchors }
  | none => pure ()

/-- Keeps a node that has an anchor. -/
def keep (ps : Properties) (place : Nat) (n : Node) : Reader Node := do
  if ps.anchor.isSome then modify fun p => { p with anchored := (place, n) :: p.anchored }
  return n

/-- The node that a reference names. -/
def reference (m : Mark) (name : Bytes) : Reader Node := do
  let p ← get
  match p.anchors.lookup name with
  | some target => return .reference (m.line + 1) name p.next target
  | none => throw (.unplaced (.unknownAnchor name))

end Reader

/-! ## Nodes -/

namespace Node

/-- The node of a scalar.  In quotes or in a block everything is a string. -/
def ofScalar (m : Mark) (ps : Properties) (isQuoted : Bool) (s : Bytes) : Node :=
  let own := if isQuoted then .str else if s == utf8 "<<" then .merge else .ofPlain s
  .scalar (m.line + 1) (ps.typeOr own) s

open Reader

mutual

/-- Reads a node.  Block collections start only where `block` allows them, and a sequence that is
not indented only where `indentless` does. -/
def read (ts : TokenStream) (block indentless : Bool) : (fuel : Nat) → Reader Node
  | 0 => throw (.unplaced .tooDeep)
  | fuel + 1 => do
    let t ← peek ts
    match t.kind with
    | .reference name =>
      let n ← Reader.reference t.mark name
      pass
      return n
    | _ =>
      let place := (← get).next
      let ps ← properties ts
      bind ps place
      keep ps place (← readContent ts block indentless t.mark ps fuel)
termination_by structural fuel => fuel

/-- Reads a node that started at `start`, after its anchor and its tag. -/
def readContent (ts : TokenStream) (block indentless : Bool) (start : Mark) (ps : Properties) :
    (fuel : Nat) → Reader Node
  | 0 => throw (.unplaced .tooDeep)
  | fuel + 1 => do
    let t ← peek ts
    let line := start.line + 1
    match t.kind with
    | .scalar isQuoted s =>
      pass
      return ofScalar start ps isQuoted s
    | .flowSequenceStart =>
      pass
      return .sequence line (ps.typeOr .seq) (← readFlowItems ts t.mark true fuel)
    | .flowMappingStart =>
      pass
      return .mapping line (ps.typeOr .map) (← readFlowPairs ts t.mark true fuel)
    | kind =>
      if indentless && kind = .blockEntry then
        return .sequence line (ps.typeOr .seq) (← readIndentless ts fuel)
      else if block && kind = .blockSequenceStart then
        pass
        return .sequence line (ps.typeOr .seq) (← readItems ts t.mark fuel)
      else if block && kind = .blockMappingStart then
        pass
        return .mapping line (ps.typeOr .map) (← readPairs ts t.mark fuel)
      else if ps.isEmpty then throw (.inStructure .noNode start t.mark)
      else return ofScalar start ps false []
termination_by structural fuel => fuel

/-- Reads a node unless one of the given tokens comes, before which it is missing. -/
def readUnless (ts : TokenStream) (block indentless : Bool) (ends : List TokenKind)
    (place : Option Mark) : (fuel : Nat) → Reader Node
  | 0 => throw (.unplaced .tooDeep)
  | fuel + 1 => do
    if ← isAt ts ends then return missing (place.getD (← peek ts).mark)
    read ts block indentless fuel
termination_by structural fuel => fuel

/-- Reads the entries of a block sequence that started at `start`. -/
def readItems (ts : TokenStream) (start : Mark) : (fuel : Nat) → Reader (List Node)
  | 0 => throw (.unplaced .tooDeep)
  | fuel + 1 => do
    let t ← peek ts
    match t.kind with
    | .blockEntry =>
      pass
      let item ← readUnless ts true false [.blockEntry, .blockEnd] (some t.mark) fuel
      return item :: (← readItems ts start fuel)
    | .blockEnd =>
      pass
      return []
    | _ => throw (.inStructure .noDash start t.mark)
termination_by structural fuel => fuel

/-- Reads the entries of a sequence that is not indented. -/
def readIndentless (ts : TokenStream) : (fuel : Nat) → Reader (List Node)
  | 0 => throw (.unplaced .tooDeep)
  | fuel + 1 => do
    let t ← peek ts
    if t.kind = .blockEntry then
      pass
      let item ←
        readUnless ts true false [.blockEntry, .key, .value, .blockEnd] (some t.mark) fuel
      return item :: (← readIndentless ts fuel)
    else return []
termination_by structural fuel => fuel

/-- Reads the pairs of a block mapping that started at `start`. -/
def readPairs (ts : TokenStream) (start : Mark) : (fuel : Nat) → Reader (List (Node × Node))
  | 0 => throw (.unplaced .tooDeep)
  | fuel + 1 => do
    let t ← peek ts
    match t.kind with
    | .key =>
      pass
      let key ← readUnless ts true true [.key, .value, .blockEnd] (some t.mark) fuel
      let value ← readValue ts true [.key, .value, .blockEnd] fuel
      return (key, value) :: (← readPairs ts start fuel)
    | .blockEnd =>
      pass
      return []
    | _ => throw (.inStructure .noKey start t.mark)
termination_by structural fuel => fuel

/-- Reads the value after a key; without a colon it is missing. -/
def readValue (ts : TokenStream) (block : Bool) (ends : List TokenKind) :
    (fuel : Nat) → Reader Node
  | 0 => throw (.unplaced .tooDeep)
  | fuel + 1 => do
    let t ← peek ts
    if t.kind = .value then
      pass
      readUnless ts block block ends none fuel
    else return missing t.mark
termination_by structural fuel => fuel

/-- Reads the entries of a sequence in brackets that started at `start`. -/
def readFlowItems (ts : TokenStream) (start : Mark) (isFirst : Bool) :
    (fuel : Nat) → Reader (List Node)
  | 0 => throw (.unplaced .tooDeep)
  | fuel + 1 => do
    let t ← peek ts
    if t.kind ≠ .flowSequenceEnd && !isFirst then
      if t.kind = .flowEntry then pass else throw (.inStructure .noSequenceEnd start t.mark)
    let t ← peek ts
    match t.kind with
    | .flowSequenceEnd =>
      pass
      return []
    | .key =>
      pass
      let item := .mapping (t.mark.line + 1) .map [← readFlowPair ts fuel]
      return item :: (← readFlowItems ts start false fuel)
    | _ =>
      let item ← read ts false false fuel
      return item :: (← readFlowItems ts start false fuel)
termination_by structural fuel => fuel

/-- Reads a key and its value that stand alone in a sequence in brackets.  Where the key is
missing, the token that shows it is passed over. -/
def readFlowPair (ts : TokenStream) : (fuel : Nat) → Reader (Node × Node)
  | 0 => throw (.unplaced .tooDeep)
  | fuel + 1 => do
    let t ← peek ts
    let key ←
      if [TokenKind.value, .flowEntry, .flowSequenceEnd].contains t.kind then do
        pass
        pure (missing t.mark)
      else read ts false false fuel
    return (key, ← readValue ts false [.flowEntry, .flowSequenceEnd] fuel)
termination_by structural fuel => fuel

/-- Reads the pairs of a mapping in brackets that started at `start`. -/
def readFlowPairs (ts : TokenStream) (start : Mark) (isFirst : Bool) :
    (fuel : Nat) → Reader (List (Node × Node))
  | 0 => throw (.unplaced .tooDeep)
  | fuel + 1 => do
    let t ← peek ts
    if t.kind ≠ .flowMappingEnd && !isFirst then
      if t.kind = .flowEntry then pass else throw (.inStructure .noMappingEnd start t.mark)
    let t ← peek ts
    match t.kind with
    | .flowMappingEnd =>
      pass
      return []
    | .key =>
      pass
      let key ← readUnless ts false false [.value, .flowEntry, .flowMappingEnd] none fuel
      let value ← readValue ts false [.flowEntry, .flowMappingEnd] fuel
      return (key, value) :: (← readFlowPairs ts start false fuel)
    | _ =>
      let key ← read ts false false fuel
      let value := missing (← peek ts).mark
      return (key, value) :: (← readFlowPairs ts start false fuel)
termination_by structural fuel => fuel

end

end Node

/-! ## Documents -/

namespace Document

open Reader

/-- The meanings of handles that no directive has to state. -/
def commonHandles : List (Bytes × Bytes) := [("!", "!"), ("!!", Properties.commonStem)]

/-- Reads directives, `fuel` of them at most.  Only one version may be stated, and one meaning of
each handle. -/
def readDirectives (ts : TokenStream) (hasVersion : Bool) : (fuel : Nat) → Reader Unit
  | 0 => return
  | fuel + 1 => do
    let t ← peek ts
    match t.kind with
    | .version major minor =>
      if hasVersion then throw (.inStructure .repeatedVersion ⟨0, 0, 0⟩ t.mark)
      if major ≠ 1 || minor ≠ 1 then throw (.inStructure .foreignVersion ⟨0, 0, 0⟩ t.mark)
      pass
      readDirectives ts true fuel
    | .tagHandle handle stem =>
      let p ← get
      if (p.handles.lookup handle).isSome then
        throw (.inStructure .repeatedTagHandle ⟨0, 0, 0⟩ t.mark)
      set { p with handles := (handle, stem) :: p.handles }
      pass
      readDirectives ts hasVersion fuel
    | _ => modify fun p => { p with handles := p.handles ++ commonHandles }

/-- Reads the root of a document that directives or a border start. -/
def readExplicit (ts : TokenStream) (fuel : Nat) : Reader Node := do
  let t ← peek ts
  if t.kind ≠ .documentStart then throw (.inStructure .noDocumentStart ⟨0, 0, 0⟩ t.mark)
  pass
  let u ← peek ts
  match u.kind with
  | .version _ _ | .tagHandle _ _ | .documentStart | .documentEnd | .streamEnd =>
    return Node.missing u.mark
  | _ => Node.read ts true false fuel

/-- Whether a token can only stand before a document. -/
def isPreamble : TokenKind → Bool
  | .version _ _ => true
  | .tagHandle _ _ => true
  | .documentStart => true
  | _ => false

/-- Reads the first document; `none` if there is none. -/
def read (ts : TokenStream) : Reader (Option Node) := do
  let fuel := 4 * ts.tokens.size + 8
  let t ← peek ts
  if t.kind = .streamEnd then return none
  readDirectives ts false fuel
  let root ← if isPreamble t.kind then readExplicit ts fuel else Node.read ts true false fuel
  let _ ← peek ts
  return some root

/-- The first document of a text. -/
def ofText (s : Bytes) : Except Problem (Option Document) := do
  let ts := TokenStream.ofInput (.ofBytes s)
  let (root?, p) ← (read ts).run ⟨0, [], [], []⟩
  return root?.map fun root => ⟨root, p.anchored⟩

end Document

end LineCalc.Yaml
