import LineCalc.Environment
import LineCalc.Text.Quoted
/-!
# Settings

The settings of a run and the layers that change them.  A layer says something about some of the
settings, and a later layer wins, setting by setting; an empty text stands for the default.
-/
namespace LineCalc

/-- The settings of a run.  The formats are texts, because a layer may ask for one that there is
not. -/
structure Settings where
  /-- The program to run. -/
  input : Bytes
  /-- Whether print expressions may hold characters that mean nothing. -/
  lenient : Bool
  /-- The format of the listing at the end. -/
  dump : Bytes
  /-- When complaints are coloured. -/
  color : Bytes
  /-- The database that takes the variables at the end; empty for none. -/
  exportDb : Bytes
  deriving DecidableEq, Repr

/-- What one layer says about the settings. -/
structure Layer where
  input : Option Bytes := none
  lenient : Option Bool := none
  dump : Option Bytes := none
  color : Option Bytes := none
  exportDb : Option Bytes := none
  deriving DecidableEq, Repr

/-- A setting that a layer from `source` gives a value outside its choices. -/
inductive SettingsError where
  | dump (source value : Bytes)
  | color (source value : Bytes)
  deriving DecidableEq, Repr

namespace Settings

/-- The formats of the listing at the end. -/
def dumps : List Bytes := ["text", "yaml", "none"]

/-- The rules for colour. -/
def colors : List Bytes := ["auto", "always", "never"]

end Settings

namespace SettingsError

/-- A setting and its choices, against the value that it was given. -/
def oneOf (source setting : Bytes) (choices : List Bytes) (value : Bytes) : Bytes :=
  source ++ utf8 ": " ++ setting ++ utf8 " must be one of " ++ (utf8 ", ").intercalate choices ++
    utf8 "; got " ++ Text.quote value

/-- The error in words. -/
def message : SettingsError → Bytes
  | dump source value => oneOf source "dump" Settings.dumps value
  | color source value => oneOf source "color" Settings.colors value

end SettingsError

namespace Settings

/-- The program that is run when none is named. -/
def defaultInput : Bytes := "input.txt"

/-- A text, or a default if it is empty. -/
def orDefault (default s : Bytes) : Bytes := if s.isEmpty then default else s

/-- The settings with defaults for their empty texts; only an empty database stays so. -/
def withDefaults (s : Settings) : Settings :=
  { s with
    input := orDefault defaultInput s.input
    dump := orDefault "text" s.dump
    color := orDefault "auto" s.color }

/-- The settings that nothing was said about. -/
def blank : Settings := ⟨[], false, [], [], []⟩

/-- The settings of a run without layers. -/
def default : Settings := withDefaults blank

/-- What is wrong with the settings, if anything; `source` is named in the complaint. -/
def fault? (s : Settings) (source : Bytes) : Option SettingsError :=
  if !dumps.contains s.dump then some (.dump source s.dump)
  else if !colors.contains s.color then some (.color source s.color)
  else none

/-- The settings after a layer, valid or not.  An empty input says nothing. -/
def merge (s : Settings) (l : Layer) : Settings :=
  withDefaults
    { input := match l.input with
        | some i => if i.isEmpty then s.input else i
        | none => s.input
      lenient := l.lenient.getD s.lenient
      dump := l.dump.getD s.dump
      color := l.color.getD s.color
      exportDb := l.exportDb.getD s.exportDb }

/-- The settings after a layer from `source`, if they are valid. -/
def apply (s : Settings) (l : Layer) (source : Bytes) : Except SettingsError Settings :=
  match (s.merge l).fault? source with
  | some e => .error e
  | none => .ok (s.merge l)

end Settings

/-- The layer that the environment gives. -/
def Layer.ofEnvironment (env : Environment) : Layer where
  input := env.text? "NUMLANG_INPUT"
  lenient := env.switch? "NUMLANG_LENIENT"
  dump := env.text? "NUMLANG_DUMP"
  color := env.text? "NUMLANG_COLOR"
  exportDb := env.text? "NUMLANG_EXPORT_DB"

/-! ## Colour -/

/-- What the output of a run is connected to. -/
inductive OutputKind where
  | none
  | file
  | terminal
  deriving DecidableEq, Repr

/-- Whether complaints are coloured.  Unless the rule decides it, colour needs a terminal that can
show it and an environment that does not forbid it. -/
def usesColor (rule : Bytes) (out : OutputKind) (env : Environment) : Bool :=
  if rule == utf8 "always" then true
  else if rule == utf8 "never" then false
  else !env.forbidsColor && out == .terminal && !env.isDumbTerminal

end LineCalc
