import LineCalc.Table
/-!
# Snapshots

The variables at the end of a run, parted by kind, each with its place in the order of
declarations.
-/
namespace LineCalc

/-- A variable of a snapshot and its place, counted from one, among all variables. -/
structure Entry where
  seq : Nat
  name : Bytes
  value : Value
  deriving DecidableEq

/-- The variables at the end of a run. -/
structure Snapshot where
  run : Bytes
  source : Bytes
  integers : List Entry
  doubles : List Entry
  deriving DecidableEq

namespace Snapshot

/-- The variables with their places. -/
def number (ss : List Symbol) : List Entry :=
  (ss.zipIdx 1).map fun (s, i) => ⟨i, s.name, s.value⟩

/-- The snapshot of a table. -/
def ofTable (run source : Bytes) (t : Table) : Snapshot where
  run := run
  source := source
  integers := (number t.symbols).filter (·.value.kind == .int)
  doubles := (number t.symbols).filter (·.value.kind == .double)

/-- All entries in the order of their places. -/
def entries (s : Snapshot) : List Entry := s.integers.merge s.doubles fun a b => a.seq < b.seq

end Snapshot

end LineCalc
