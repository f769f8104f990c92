import LineCalc.Text.Bytes
/-!
# Environment variables

A variable that is set to the empty text counts as not set.
-/
namespace LineCalc

/-- The variables of an environment with their values. -/
abbrev Environment := List (Bytes × Bytes)

namespace Environment

/-- The value of a variable; empty if it is not set. -/
def text (env : Environment) (name : Bytes) : Bytes := (env.lookup name).getD []

/-- The value of a variable that is set. -/
def text? (env : Environment) (name : Bytes) : Option Bytes :=
  if (env.text name).isEmpty then none else some (env.text name)

/-- The words that switch something on, in lower case. -/
def affirmatives : List Bytes :=
  ["absolutely", "affirmative", "enable", "enabled", "positive", "t", "true", "y", "yes"]

/-- A lower-case letter as a capital. -/
def upper (b : UInt8) : UInt8 := if 0x61 ≤ b && b ≤ 0x7a then b - 0x20 else b

/-- A word with a capital at its start. -/
def capitalized : Bytes → Bytes
  | [] => []
  | b :: r => upper b :: r

/-- Whether a text means "on": `1`, or an affirmative word in lower case, capitalised or in
capitals. -/
def isTrue (s : Bytes) : Bool :=
  s == utf8 "1" || affirmatives.any fun w => s == w || s == capitalized w || s == w.map upper

/-- Whether a variable is switched on; `none` if it is not set. -/
def switch? (env : Environment) (name : Bytes) : Option Bool := (env.text? name).map isTrue

/-! ## The variables that a run looks at -/

/-- All variables that a run looks at. -/
def names : List Bytes :=
  ["NO_COLOR", "TERM", "NUMLANG_TEST_MODE", "NUMLANG_INPUT", "NUMLANG_LENIENT", "NUMLANG_DUMP",
    "NUMLANG_COLOR", "NUMLANG_EXPORT_DB"]

/-- Whether the environment asks for no colour. -/
def forbidsColor (env : Environment) : Bool := (env.text? "NO_COLOR").isSome

/-- Whether the terminal cannot show colour. -/
def isDumbTerminal (env : Environment) : Bool := env.text "TERM" == utf8 "dumb"

/-- Whether runs have a fixed identity and no colour, so that their output can be compared. -/
def isTestMode (env : Environment) : Bool := isTrue (env.text "NUMLANG_TEST_MODE")

end Environment

end LineCalc
