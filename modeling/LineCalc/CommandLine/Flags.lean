import LineCalc.Settings.Basic
/-!
# Flags of the command line

A flag is written with one or two dashes, and its value after `=` or as the next argument; a switch
takes a value only after `=`.  Flags end at the first argument that is none, or after `--`.
-/
namespace LineCalc

/-- The flags. -/
inductive Flag where
  | color
  | config
  | debug
  | dump
  | exportDb
  | lenient
  deriving DecidableEq, Repr

namespace Flag

/-- All flags, in the order of their names. -/
def all : List Flag := [color, config, debug, dump, exportDb, lenient]

/-- The name of a flag. -/
def name : Flag → Bytes
  | color => "color"
  | config => "config"
  | debug => "debug"
  | dump => "dump"
  | exportDb => "export-db"
  | lenient => "lenient"

/-- The flag of the given name. -/
def ofName? (s : Bytes) : Option Flag := all.find? (·.name == s)

/-- Whether a flag is a switch. -/
def isSwitch : Flag → Bool
  | debug | lenient => true
  | _ => false

/-- The word for a flag's value in the help; empty for switches. -/
def valueWord : Flag → Bytes
  | debug | lenient => []
  | exportDb => "path"
  | _ => "string"

/-- What a flag does. -/
def description : Flag → Bytes
  | color => "coloured diagnostics: auto | always | never"
  | config => "config file (default numlang.yaml if present)"
  | debug => "trace classification and expression trees to stderr"
  | dump => "final dump format: text | yaml | none"
  | exportDb => "write a SQLite snapshot of the final symbol table to path"
  | lenient => "drop unrecognized characters in print expressions"

end Flag

/-- The help. -/
def usage : Bytes :=
  utf8 "Usage: numlang [flags] [file]\n\n" ++
    utf8 "Runs a numlang program. The file defaults to the \"input\" setting of\n" ++
    utf8 "numlang.yaml, or input.txt.\n\nFlags:\n" ++
    Flag.all.flatMap fun f =>
      utf8 "  -" ++ f.name ++ (if f.isSwitch then [] else utf8 " " ++ f.valueWord) ++
        utf8 "\n    \t" ++ f.description ++ utf8 "\n"

/-- Why the arguments are refused, or help is asked for. -/
inductive FlagError where
  | help
  | badSyntax (arg : Bytes)
  | undefined (name : Bytes)
  | noArgument (name : Bytes)
  | notBoolean (value name : Bytes)
  deriving DecidableEq

/-- The error in words; a request for help has none. -/
def FlagError.message : FlagError → Bytes
  | help => []
  | badSyntax arg => utf8 "bad flag syntax: " ++ arg
  | undefined name => utf8 "flag provided but not defined: -" ++ name
  | noArgument name => utf8 "flag needs an argument: -" ++ name
  | notBoolean value name =>
    utf8 "invalid boolean value " ++ Text.quote value ++ utf8 " for -" ++ name ++
      utf8 ": parse error"

/-- What the arguments say: a settings file, whether to keep a log, the settings, and the
arguments that are no flags. -/
structure Arguments where
  config : Bytes := []
  debug : Bool := false
  layer : Layer := {}
  rest : List Bytes := []

namespace Arguments

/-- The texts that switch on. -/
def onWords : List Bytes := ["1", "t", "T", "true", "TRUE", "True"]

/-- The texts that switch off. -/
def offWords : List Bytes := ["0", "f", "F", "false", "FALSE", "False"]

/-- The switch that a text gives. -/
def readSwitch? (s : Bytes) : Option Bool :=
  if onWords.contains s then some true else if offWords.contains s then some false else none

/-- The arguments with a switch set. -/
def setSwitch (a : Arguments) (f : Flag) (b : Bool) : Arguments :=
  match f with
  | .debug => { a with debug := b }
  | .lenient => { a with layer := { a.layer with lenient := some b } }
  | _ => a

/-- The arguments with the value of a flag. -/
def setText (a : Arguments) (f : Flag) (s : Bytes) : Arguments :=
  match f with
  | .config => { a with config := s }
  | .color => { a with layer := { a.layer with color := some s } }
  | .dump => { a with layer := { a.layer with dump := some s } }
  | .exportDb => { a with layer := { a.layer with exportDb := some s } }
  | _ => a

/-- The name and the value, if it has one, of a flag without its dashes. -/
def splitValue (s : Bytes) : Bytes × Option Bytes :=
  let name := s.takeWhile (· != 0x3d)
  match s.dropWhile (· != 0x3d) with
  | [] => (name, none)
  | _ :: v => (name, some v)

/-- The text of a flag after its dashes; `none` if an argument is no flag. -/
def flagText? : Bytes → Option Bytes
  | 0x2d :: 0x2d :: r => if r.isEmpty then none else some r
  | 0x2d :: r => if r.isEmpty then none else some r
  | _ => none

/-- Takes over the arguments one by one. -/
def parse (a : Arguments) : List Bytes → Except FlagError Arguments
  | [] => .ok a
  | arg :: args =>
    if arg = utf8 "--" then .ok { a with rest := args }
    else match flagText? arg with
      | none => .ok { a with rest := arg :: args }
      | some s =>
        if s.head?.any fun b => b == 0x2d || b == 0x3d then .error (.badSyntax arg)
        else
          let (name, value?) := splitValue s
          match Flag.ofName? name, value? with
          | none, _ =>
            if name = utf8 "help" || name = utf8 "h" then .error .help
            else .error (.undefined name)
          | some f, none =>
            if f.isSwitch then parse (a.setSwitch f true) args
            else match args with
              | [] => .error (.noArgument name)
              | v :: args' => parse (a.setText f v) args'
          | some f, some v =>
            if f.isSwitch then
              match readSwitch? v with
              | some b => parse (a.setSwitch f b) args
              | none => .error (.notBoolean v name)
            else parse (a.setText f v) args

/-- What a list of arguments says. -/
def ofList (args : List Bytes) : Except FlagError Arguments := parse {} args

end Arguments

end LineCalc
