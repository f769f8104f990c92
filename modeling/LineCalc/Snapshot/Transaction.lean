import LineCalc.Change
import LineCalc.Snapshot.Rows
/-!
# Transactions of a database

The rows of a snapshot are inserted one after the other in a transaction.  Every row has a key, its
run and its place, and a row whose key is there stops the transaction.  Unless all rows are in and
the transaction is committed, it is rolled back in the end.

* `Transaction` : the rows that stay, and those that are seen within the transaction;
* `Transaction.insert`, `Transaction.commit`, `Transaction.rollback` : its statements;
* `Transaction.write` : all statements for a snapshot.
-/
namespace LineCalc

/-- A database within a transaction: the rows that it has for good, and those that it has until the
transaction ends. -/
structure Transaction where
  committed : List Row
  pending : List Row
  deriving DecidableEq

namespace Transaction

/-- A transaction starts with the rows of the database. -/
def start (rows : List Row) : Transaction := ⟨rows, rows⟩

/-! ## Statements -/

/-- Inserts a row.  Its key must be new. -/
def insert (r : Row) : Change Transaction Row Unit := do
  if (← get).pending.any r.clashes then throw r
  else modify fun t => { t with pending := t.pending ++ [r] }

/-- Makes all that was inserted stay. -/
def commit : Change Transaction Row Unit := modify fun t => { t with committed := t.pending }

/-- Takes back what was inserted and is not committed. -/
def rollback : Change Transaction Row Unit := modify fun t => { t with pending := t.committed }

/-- Inserts the rows of a snapshot and commits them.  What is not committed in the end is taken
back. -/
def write (s : Snapshot) : Change Transaction Row Unit := do
  try
    forM s.entries fun e => insert (Row.ofEntry s.run e)
    commit
  finally rollback

end Transaction

end LineCalc
