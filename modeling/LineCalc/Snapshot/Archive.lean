import LineCalc.Snapshot.Rows
/-!
# Rows as text

A database on disk is a text: a first line that marks it, and one line for each row, with tabs
between the fields and names in hexadecimal digits, so that any name can stand there.
-/
namespace LineCalc.Archive

/-- The line that marks a database. -/
def mark : Bytes := "variables run seq name kind int double"

/-- The hexadecimal digits of a text. -/
def hexText (s : Bytes) : Bytes := s.flatMap fun b => Bytes.hex 2 b.toNat

/-- The text that hexadecimal digits write. -/
def ofHexText? : Bytes → Option Bytes
  | [] => some []
  | [_] => none
  | a :: b :: r =>
    if isDigitOf true a && isDigitOf true b then
      (ofHexText? r).map (UInt8.ofNat (16 * digitValueOf a + digitValueOf b) :: ·)
    else none

/-- A field that may be empty. -/
def orEmpty (text : α → Bytes) : Option α → Bytes
  | some a => text a
  | none => []

/-- The value of a field that may be empty. -/
def readOptional? (read? : Bytes → Option α) (s : Bytes) : Option (Option α) :=
  if s.isEmpty then some none else (read? s).map some

/-- The line of a row. -/
def line (r : Row) : Bytes :=
  (utf8 "\t").intercalate
    [hexText r.run, Bytes.ofNat r.seq, hexText r.name, r.kind.text,
      orEmpty (fun i => Bytes.ofInt i.toInt) r.int,
      orEmpty (fun d => Bytes.hex 16 d.toBits.toNat) r.double]

/-- The row that a line writes. -/
def ofLine? (s : Bytes) : Option Row :=
  match Bytes.splitAt 0x09 s with
  | [run, seq, name, kind, int, double] => do
    let run ← ofHexText? run
    let seq ← if seq.isEmpty || !seq.all Bytes.isDigit then none else some (Bytes.toNat seq)
    let name ← ofHexText? name
    let kind ← Kind.ofText? kind
    let int ← readOptional? readInt? int
    let bits := fun s => some (Double.ofBits (UInt64.ofNat (readDigits true s)))
    let double ← readOptional? bits double
    return ⟨run, seq, name, kind, int, double⟩
  | _ => none

/-- The text of a database. -/
def text (rows : List Row) : Bytes := (mark :: rows.map line).flatMap (· ++ utf8 "\n")

/-- The rows of a database that is given as a text. -/
def rows? (s : Bytes) : Option (List Row) :=
  match Bytes.splitAt 0x0a s with
  | first :: rest => if first = mark then (rest.dropLast).mapM ofLine? else none
  | [] => none

end LineCalc.Archive
