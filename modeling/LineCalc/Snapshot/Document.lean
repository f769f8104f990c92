import LineCalc.Snapshot.Basic
import LineCalc.Yaml.Scalar
/-!
# Snapshots as YAML documents

A document names the run and its source and lists the integers and the doubles.  A double always
has a point, so that it reads back as one.
-/
namespace LineCalc.Snapshot

/-- The text of a value in a document. -/
def valueText : Value → Bytes
  | .double .nan => ".nan"
  | .double (.infinity negative) => Double.sign negative ++ utf8 ".inf"
  | v => v.toText

/-- An entry of a list. -/
def item (e : Entry) : Bytes :=
  utf8 "  - name: " ++ Yaml.string 6 (Yaml.Tag.ofPlain e.name != .str) e.name ++
    utf8 "    value: " ++ valueText e.value ++ utf8 "\n"

/-- A key with a list of entries. -/
def list (key : Bytes) (es : List Entry) : Bytes :=
  if es.isEmpty then key ++ utf8 ": []\n" else key ++ utf8 ":\n" ++ es.flatMap item

/-- A text that must not be taken for anything else by any reader; what is not UTF-8 is written as
binary data. -/
def headerText (s : Bytes) : Bytes :=
  if Text.isUtf8 s then Yaml.string 2 (Yaml.isAmbiguous s) s
  else utf8 "!!binary " ++ Yaml.string 2 false (Yaml.binaryLines s)

/-- A key with a text. -/
def header (key s : Bytes) : Bytes := key ++ utf8 ": " ++ headerText s

/-- The document of a snapshot. -/
def document (s : Snapshot) : Bytes :=
  header "run" s.run ++ header "source" s.source ++ list "integers" s.integers ++
    list "doubles" s.doubles

end LineCalc.Snapshot
