import LineCalc.Snapshot.Basic
/-!
# Snapshots as database rows

A database holds one row for each variable of each run.  A row is known by its run and its place.
-/
namespace LineCalc

/-- A row: the variable of a run at a place.  Of the two values one is there, unless the variable
is a double that is no number. -/
structure Row where
  run : Bytes
  seq : Nat
  name : Bytes
  kind : Kind
  int : Option Int64
  double : Option Double
  deriving DecidableEq

namespace Row

/-- A double as a database keeps it: zero has no sign, and what is no number is no value. -/
def stored : Double → Option Double
  | .nan => none
  | d => if d = Double.zero.neg then some .zero else some d

/-- The row of an entry. -/
def ofEntry (run : Bytes) (e : Entry) : Row :=
  match e.value with
  | .int i => ⟨run, e.seq, e.name, .int, some i, none⟩
  | .double d => ⟨run, e.seq, e.name, .double, none, stored d⟩

/-- Whether two rows have the same run and place. -/
def clashes (a b : Row) : Bool := a.run == b.run && a.seq == b.seq

end Row

/-- The rows of a snapshot. -/
def Snapshot.rows (s : Snapshot) : List Row := s.entries.map (Row.ofEntry s.run)

end LineCalc
