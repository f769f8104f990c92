import LineCalc.Settings.Basic
import LineCalc.Path
import LineCalc.Yaml.Value
/-!
# Settings files

Settings written as a YAML mapping.  Keys that name no setting are passed over, and null leaves a
setting as it is.  The merge key `<<` brings in the pairs of other mappings for keys that have not
come yet.  A file with a value of the wrong type or a key that comes twice is refused as a whole,
with all that is wrong with it.
-/
namespace LineCalc

open Yaml (Node Document Tag Problem ScalarValue)

/-- A value that does not fit, a key that comes twice, or two keys for one setting. -/
inductive FieldError where
  | wrongType (line : Nat) (tag : Tag) (text : Bytes) (wanted : Bytes)
  | repeated (line : Nat) (key : Bytes) (firstLine : Nat)
  | alreadySet (line : Nat) (key : Bytes)
  deriving DecidableEq

namespace FieldError

/-- A text in backquotes, cut off if it is long. -/
def excerpt (s : Bytes) : Bytes :=
  utf8 "`" ++ (if s.length ≤ 10 then s else s.take 7 ++ utf8 "...") ++ utf8 "`"

/-- The error in words. -/
def message : FieldError → Bytes
  | wrongType line tag text wanted =>
    utf8 "line " ++ Bytes.ofNat line ++ utf8 ": cannot unmarshal " ++ tag.text ++
      (if tag = .seq ∨ tag = .map then text else utf8 " " ++ excerpt text) ++
      utf8 " into " ++ wanted
  | repeated line key firstLine =>
    utf8 "line " ++ Bytes.ofNat line ++ utf8 ": mapping key " ++ Text.quote key ++
      utf8 " already defined at line " ++ Bytes.ofNat firstLine
  | alreadySet line key =>
    utf8 "line " ++ Bytes.ofNat line ++ utf8 ": field " ++ key ++
      utf8 " already set in type config.Config"

end FieldError

/-- Why a text holds no settings. -/
inductive DecodeError where
  | problem (p : Problem)
  | fields (es : List FieldError)

/-- The error in words. -/
def DecodeError.message : DecodeError → Bytes
  | problem p => utf8 "yaml: " ++ p.message
  | fields es => utf8 "yaml: unmarshal errors:" ++ es.flatMap fun e => utf8 "\n  " ++ e.message

namespace Settings

/-! ## Decoding -/

/-- What has been decoded. -/
structure Decoded where
  settings : Settings
  /-- What was wrong on the way. -/
  errors : List FieldError
  /-- The keys that have come. -/
  seen : List Bytes

/-- Decoding collects settings and errors, up to a problem that ends it. -/
abbrev Decoder := StateT Decoded (Except Problem)

/-- Notes errors. -/
def complain (es : List FieldError) : Decoder Unit :=
  modify fun d => { d with errors := d.errors ++ es }

/-! ## Values -/

/-- The error of a node where something else is wanted. -/
def mismatch (wanted : Bytes) : Node → FieldError
  | .scalar l tag s => .wrongType l tag s wanted
  | .sequence l tag _ => .wrongType l tag [] wanted
  | .mapping l tag _ => .wrongType l tag [] wanted
  | .reference l _ _ _ => .wrongType l .null [] wanted

/-- Whether two nodes count as the same key: both are scalars with the same text, or references
by the same name, or both sequences, or both mappings. -/
def sameKey : Node → Node → Bool
  | .scalar _ _ s, .scalar _ _ t => s == t
  | .reference _ a _ _, .reference _ b _ _ => a == b
  | .sequence _ _ _, .sequence _ _ _ => true
  | .mapping _ _ _, .mapping _ _ _ => true
  | _, _ => false

/-- The keys that come twice. -/
def repeats : List Node → List FieldError
  | [] => []
  | k :: ks => (ks.filter (sameKey k)).map (fun l => .repeated l.line l.text k.line) ++ repeats ks

/-- What is wrong with a node where something else is wanted. -/
def mismatches (wanted : Bytes) (n : Node) : List FieldError :=
  let twice := match n with
    | .mapping _ _ pairs => repeats (pairs.map (·.1))
    | _ => []
  if twice.isEmpty then [mismatch wanted n] else twice

/-- The text that a node gives: that of any scalar but null. -/
def textOf (doc : Document) (n : Node) : Decoder (Option Bytes) := do
  match doc.target n with
  | .scalar _ tag s =>
    match ← ScalarValue.ofText tag s with
    | .null => return none
    | .text t => return some t
    | .bool _ | .other => return some s
  | n =>
    complain (mismatches "string" n)
    return none

/-- The switch that a node gives: a boolean, or a string that older readers took for one. -/
def switchOf (doc : Document) (n : Node) : Decoder (Option Bool) := do
  match doc.target n with
  | .scalar l tag s =>
    match ← ScalarValue.ofText tag s with
    | .null => return none
    | .bool b => return some b
    | .text t =>
      if Yaml.oldTrueWords.contains t then return some true
      if Yaml.oldFalseWords.contains t then return some false
      complain [.wrongType l tag s "bool"]
      return none
    | .other =>
      complain [.wrongType l tag s "bool"]
      return none
  | n =>
    complain (mismatches "bool" n)
    return none

/-! ## Mappings -/

/-- The keys that name settings. -/
def keys : List Bytes := ["input", "lenient", "dump", "color", "export_db"]

/-- Takes over what a node says about a setting. -/
def put (said : Option α) (set : α → Settings → Settings) : Decoder Unit :=
  match said with
  | some a => modify fun d => { d with settings := set a d.settings }
  | none => pure ()

/-- Takes over a value under a key. -/
def takeField (doc : Document) (key : Bytes) (value : Node) : Decoder Unit := do
  if key = utf8 "input" then put (← textOf doc value) fun a s => { s with input := a }
  else if key = utf8 "lenient" then put (← switchOf doc value) fun a s => { s with lenient := a }
  else if key = utf8 "dump" then put (← textOf doc value) fun a s => { s with dump := a }
  else if key = utf8 "color" then put (← textOf doc value) fun a s => { s with color := a }
  else if key = utf8 "export_db" then
    put (← textOf doc value) fun a s => { s with exportDb := a }

/-- Whether a key brings in other mappings. -/
def isMergeKey : Node → Bool
  | .scalar _ tag s => tag == .merge && s == utf8 "<<"
  | _ => false

/-- Takes over a pair, unless its key has come already.  In a merged mapping that is no error. -/
def takePair (doc : Document) (isMerged : Bool) (p : Node × Node) : Decoder Unit := do
  if isMergeKey p.1 then return
  let some key ← textOf doc p.1 | return
  if (← get).seen.contains key then
    if !isMerged && keys.contains key then complain [.alreadySet p.1.line key]
  else
    modify fun d => { d with seen := key :: d.seen }
    takeField doc key p.2

/-- Takes over the pairs of a mapping, and then what its merge key brings in: a mapping or a
sequence of them.  `active` holds the places of the references that led here, and mappings are
nested at most `fuel` deep. -/
def takeMapping (doc : Document) (isMerged : Bool) (active : List Nat)
    (pairs : List (Node × Node)) : (fuel : Nat) → Decoder Unit
  | 0 => throw (.unplaced .tooDeep)
  | fuel + 1 => do
    let twice := repeats (pairs.map (·.1))
    if !twice.isEmpty then
      complain twice
      return
    pairs.forM (takePair doc isMerged)
    let some (_, value) := pairs.find? fun p => isMergeKey p.1 | return
    let items := match value with
      | .sequence _ _ items => items
      | n => [n]
    items.forM fun item => do
      let .mapping _ _ merged := doc.target item | throw (.unplaced .mergedScalar)
      match item with
      | .reference _ name place _ =>
        if active.contains place then throw (.unplaced (.circularAnchor name))
        takeMapping doc true (place :: active) merged fuel
      | _ => takeMapping doc true active merged fuel

/-- Takes over a document. -/
def takeRoot (doc : Document) (fuel : Nat) : Decoder Unit := do
  match doc.root with
  | .mapping _ _ pairs => takeMapping doc false [] pairs fuel
  | .scalar l tag s =>
    match ← ScalarValue.ofText tag s with
    | .null => return
    | _ => complain [.wrongType l tag s "config.Config"]
  | n => complain [mismatch "config.Config" n]

/-- The settings that a text gives; those that it does not mention are empty. -/
def ofYaml (data : Bytes) : Except DecodeError Settings :=
  let decoded : Except Problem Decoded := do
    let some doc ← Document.ofText data | return ⟨blank, [], []⟩
    let size := data.length + 2
    let (_, d) ← (takeRoot doc (size * size)).run ⟨blank, [], []⟩
    return d
  match decoded with
  | .error p => .error (.problem p)
  | .ok d => if d.errors.isEmpty then .ok d.settings else .error (.fields d.errors)

/-! ## Files -/

/-- Why a settings file is refused. -/
inductive FileFault where
  | decode (path : Bytes) (error : DecodeError)
  | invalid (error : SettingsError)

/-- The reason in words. -/
def FileFault.message : FileFault → Bytes
  | decode path e => utf8 "parsing " ++ path ++ utf8 ": " ++ e.message
  | invalid e => e.message

/-- The settings of the file at `path` with the given text.  An input is relative to the directory
of the file. -/
def ofFile (data path : Bytes) : Except FileFault Settings :=
  match ofYaml data with
  | .error e => .error (.decode path e)
  | .ok s =>
    let s := withDefaults { s with input := Path.resolve (Path.directory path) s.input }
    match s.fault? path with
    | some e => .error (.invalid e)
    | none => .ok s

end Settings

end LineCalc
