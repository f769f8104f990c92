import LineCalc.Yaml.Tag
import LineCalc.Text.Utf8
import LineCalc.Text.Base64
/-!
# Strings written in YAML

A string is written as it stands where that is safe, in single quotes where it would be read as
something else, in double quotes where it needs escapes or its type is in doubt, and as a block of
lines if it holds line breaks.
-/
namespace LineCalc.Yaml

/-! ## Characters -/

/-- The characters of a text; a byte that belongs to no character counts as one. -/
def chars (s : Bytes) : List Char :=
  (Text.glyphs s).map fun g => match g with
    | .char c => c
    | .stray b => Char.ofNat b.toNat

/-- The UTF-8 bytes of characters. -/
def encode (cs : List Char) : Bytes := cs.flatMap String.utf8EncodeChar

/-- The characters that end a line. -/
def isBreak (c : Char) : Bool :=
  c == '\n' || c == '\r' || c == '\u0085' || c == '\u2028' || c == '\u2029'

/-- Space and tab. -/
def isBlank (c : Char) : Bool := c == ' ' || c == '\t'

/-- The characters that are written without an escape. -/
def isPlainChar (c : Char) : Bool :=
  let n := c.toNat
  n == 0x0a || (0x20 ≤ n && n ≤ 0x7e) || (0xa0 ≤ n && n ≤ 0xd7ff) ||
    (0xe000 ≤ n && n ≤ 0xfffd && n != 0xfeff)

/-- Whether a character that is neither a tab nor written as it stands occurs. -/
def hasSpecial (cs : List Char) : Bool := cs.any fun c => !isPlainChar c && c != '\t'

/-- Whether some character with the first property is directly before one with the second. -/
def hasPair (p q : Char → Bool) (cs : List Char) : Bool :=
  (cs.zip cs.tail).any fun (a, b) => p a && q b

/-! ## What is safe -/

/-- Whether a text ends or goes on with a blank. -/
def endsOrBlank : List Char → Bool
  | [] => true
  | c :: _ => isBlank c

/-- The characters that cannot start a scalar without quotes. -/
def isIndicator (c : Char) : Bool :=
  ['#', ',', '[', ']', '\x7b', '\x7d', '&', '*', '!', '|', '>', '\'', '"', '%', '@',
    Char.ofNat 0x60].contains c

/-- Whether the start of a text would be read as an indicator. -/
def startsWithIndicator : List Char → Bool
  | [] => false
  | c :: r => isIndicator c || ((c == '?' || c == '-') && endsOrBlank r)

/-- Whether a colon would be read as the end of a key. -/
def hasKeyEnd : List Char → Bool
  | [] => false
  | c :: r => (c == ':' && endsOrBlank r) || hasKeyEnd r

/-- Whether a text starts like the border of a document. -/
def startsWithBorder (cs : List Char) : Bool :=
  ['-', '-', '-'].isPrefixOf cs || ['.', '.', '.'].isPrefixOf cs

/-- Whether a text starts or ends with a character that has the property. -/
def hasAtEdge (p : Char → Bool) (cs : List Char) : Bool := cs.head?.any p || cs.getLast?.any p

/-- Whether a text reads back when it is written as it stands. -/
def fitsPlain (cs : List Char) : Bool :=
  !startsWithBorder cs && !startsWithIndicator cs && !hasKeyEnd cs &&
    !hasPair isBlank (· == '#') cs && !hasAtEdge (· == ' ') cs && !cs.any isBreak &&
    !cs.contains '\t' && !hasSpecial cs

/-- Whether a text reads back when it is written in single quotes. -/
def fitsSingle (cs : List Char) : Bool :=
  !hasPair isBreak (· == ' ') cs && !hasPair (· == ' ') isBreak cs && !cs.contains '\t' &&
    !hasSpecial cs

/-- Whether a text reads back when it is written as a block of lines. -/
def fitsBlock (cs : List Char) : Bool :=
  !cs.getLast?.any (· == ' ') && !hasPair (· == ' ') isBreak cs && !hasSpecial cs

/-! ## The forms of a string -/

/-- Characters with an indentation at the start of every line but the first. -/
def indented (indent : Nat) (afterBreak : Bool) : List Char → List Char
  | [] => []
  | c :: r =>
    if isBreak c then c :: indented indent true r
    else if afterBreak then List.replicate indent ' ' ++ c :: indented indent false r
    else c :: indented indent false r

/-- A text in single quotes; a quote is written twice. -/
def single (indent : Nat) (cs : List Char) : List Char :=
  let body := indented indent false cs
  '\'' :: body.flatMap (fun c => if c == '\'' then ['\'', '\''] else [c]) ++ ['\'']

/-- The last `width` hexadecimal digits of `n`, in upper case. -/
def hexUpper (width n : Nat) : List Char :=
  (Bytes.hex width n).map fun b =>
    Char.ofNat (if 0x61 ≤ b && b ≤ 0x66 then b.toNat - 0x20 else b.toNat)

/-- The letter that stands for a character after a backslash. -/
def escapeLetter? (c : Char) : Option Char :=
  [('\x00', '0'), ('\x07', 'a'), ('\x08', 'b'), ('\t', 't'), ('\n', 'n'), ('\x0b', 'v'),
    ('\x0c', 'f'), ('\r', 'r'), ('\x1b', 'e'), ('"', '"'), ('\\', '\\'), ('\u0085', 'N'),
    ('\u00a0', '_'), ('\u2028', 'L'), ('\u2029', 'P')].lookup c

/-- The escape of a character. -/
def escape (c : Char) : List Char :=
  match escapeLetter? c with
  | some l => ['\\', l]
  | none =>
    let n := c.toNat
    if n ≤ 0xff then '\\' :: 'x' :: hexUpper 2 n
    else if n ≤ 0xffff then '\\' :: 'u' :: hexUpper 4 n
    else '\\' :: 'U' :: hexUpper 8 n

/-- Whether a character needs an escape between double quotes. -/
def needsEscape (c : Char) : Bool := !isPlainChar c || isBreak c || c == '"' || c == '\\'

/-- A text in double quotes.  After a byte order mark at its start, all of it is escaped. -/
def double (cs : List Char) : List Char :=
  let marked := cs.head? == some '\ufeff'
  '"' :: cs.flatMap (fun c => if marked || needsEscape c then escape c else [c]) ++ ['"']

/-- The mark that tells what becomes of the line breaks at the end of a block: all are kept, one
is, or none. -/
def chomping (cs : List Char) : List Char :=
  match cs.reverse with
  | a :: b :: _ => if !isBreak a then ['-'] else if isBreak b then ['+'] else []
  | [a] => if isBreak a then ['+'] else ['-']
  | [] => ['-']

/-- A text as a block of lines, to the end of its last line.  Its indentation is stated if the
first character would hide it. -/
def block (indent : Nat) (cs : List Char) : List Char :=
  let first := cs.head?
  let hint := if first.any fun c => c == ' ' || isBreak c then ['2'] else []
  let start := if first.any isBreak then [] else ['\n']
  let stop := if cs.getLast?.any isBreak then [] else ['\n']
  '|' :: hint ++ chomping cs ++ start ++ indented indent true cs ++ stop

/-- The length from which on binary data are broken into lines, and the length of these lines. -/
def binaryWidth : Nat := 70

/-- Digits in lines, each of which ends with a line break. -/
def wrapped (digits : Bytes) : Bytes :=
  if digits.isEmpty then []
  else digits.take binaryWidth ++ 0x0a :: wrapped (digits.drop binaryWidth)
termination_by digits.length
decreasing_by
  cases digits with
  | nil => contradiction
  | cons =>
    rw [List.length_drop, List.length_cons, binaryWidth]
    omega

/-- Binary data in base 64, in lines if one would be too long. -/
def binaryLines (s : Bytes) : Bytes :=
  let digits := Text.base64 s
  if digits.length < binaryWidth then digits else wrapped digits

/-- A string in YAML, to the end of its line, whose further lines have an indentation.  A doubtful
string is one whose type would not be clear without quotes. -/
def string (indent : Nat) (doubtful : Bool) (s : Bytes) : Bytes :=
  let cs := chars s
  encode <|
    if cs.contains '\n' then if fitsBlock cs then block indent cs else double cs ++ ['\n']
    else if doubtful then double cs ++ ['\n']
    else if fitsPlain cs then cs ++ ['\n']
    else if fitsSingle cs then single indent cs ++ ['\n']
    else double cs ++ ['\n']

end LineCalc.Yaml
