import LineCalc.Text.Base64
import LineCalc.Yaml.Node
/-!
# Values of YAML scalars

What the text of a scalar means under its type.  A type that a tag states must be the one that the
text has by itself; only an integer is also a number with a fraction.  Binary data are written in
base 64.
-/
namespace LineCalc.Yaml

/-- What a scalar means. -/
inductive ScalarValue where
  | null
  | bool (b : Bool)
  | text (s : Bytes)
  /-- A number or a point in time. -/
  | other

/-- Whether a text of the type `found` can be given the type `stated`. -/
def isOfType (stated found : Tag) (s : Bytes) : Bool :=
  found == stated ||
    (stated == .float && found == .int && isSignedInteger (s.filter (· != 0x5f)))

/-- What a text means under a type. -/
def ScalarValue.ofText (stated : Tag) (s : Bytes) : Except Problem ScalarValue :=
  let found := Tag.ofText (stated == .timestamp) s
  match stated with
  | .binary =>
    match Text.ofBase64? s with
    | some d => .ok (.text d)
    | none => .error (.unplaced .invalidBase64)
  | .str | .merge | .seq | .map | .other _ => .ok (.text s)
  | .null | .bool | .int | .float | .timestamp =>
    if !isOfType stated found s then .error (.unplaced (.wrongTag found s stated))
    else if stated = .null then .ok .null
    else if stated = .bool then .ok (.bool (trueWords.contains s))
    else .ok .other

end LineCalc.Yaml
