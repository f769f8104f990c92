import LineCalc.Proofs.Double.Bits
import LineCalc.Proofs.Snapshot.Rows
import LineCalc.Proofs.Table.Listing
import LineCalc.Snapshot.Document
import Mathlib.Data.List.Perm.Basic
/-!
# Views of a table

A table is shown by its dump, by the document of its snapshot and by the rows of its snapshot.  The
snapshot parts the variables by kind, and the rows merge the parts again; each view has every
variable once.

* `Value.toText_inj`, `Snapshot.valueText_inj` : the text of a value in the dump and that in the
  document tell it from all others of its kind;
* `Snapshot.entries_getElem?`, `Snapshot.perm_entries` : the entries of a snapshot;
* `Snapshot.pairs_integers`, `Snapshot.pairs_doubles` : its two parts;
* `Row.keeps_ofEntry` : what a database keeps of a value;
* `Snapshot.views_agree` : all views show the same variables.
-/
namespace LineCalc

/-! ## Values told by their texts -/

namespace Value

/-- Values of a kind are told by their texts if they can be read back. -/
theorem text_inj_of_read {text : Value → Bytes} {read : Kind → Bytes → Option Value}
    (hread : ∀ v, read v.kind (text v) = some v) {v w : Value} (h : v.kind = w.kind) :
    text v = text w ↔ v = w := by
  constructor
  · intro htext
    apply Option.some.inj
    rw [← hread v, ← hread w, h, htext]
  · exact congrArg text

/-- Every value is read back from its text in a dump, also a double that is no number. -/
theorem read?_toText_of_any (v : Value) : read? v.kind v.toText = some v := by
  cases v with
  | int i => exact @read?_toText (.int i) fun d hd => by cases hd
  | double d =>
      have hread : readDouble? d.toText = some d := by
        by_cases hd : d = .nan
        · subst hd
          decide
        · exact Double.readDouble?_toText_of_ne_nan hd
      show (readDouble? d.toText).map Value.double = some (.double d)
      rw [hread, Option.map_some]

/-- The text of a value in a dump tells it from the others of its kind. -/
theorem toText_inj {v w : Value} (h : v.kind = w.kind) : v.toText = w.toText ↔ v = w :=
  text_inj_of_read read?_toText_of_any h

end Value

namespace Snapshot

/-- The value of a kind that a text in a document writes.  Doubles that are not finite have names of
their own there, which no reader of numbers takes. -/
def readValue? : Kind → Bytes → Option Value
  | .double, s =>
    if s = utf8 ".nan" then some (.double .nan)
    else if s = utf8 ".inf" then some (.double (.infinity false))
    else if s = utf8 "-.inf" then some (.double (.infinity true))
    else Value.read? .double s
  | .int, s => Value.read? .int s

/-- Every value is read back from its text in a document. -/
theorem readValue?_valueText (v : Value) : readValue? v.kind (valueText v) = some v := by
  cases v with
  | int i => exact Value.read?_toText_of_any (.int i)
  | double d =>
      cases d with
      | nan => decide
      | infinity negative =>
          cases negative with
          | false => decide
          | true => decide
      | finite negative m =>
          have hread := Value.read?_toText_of_any (.double (.finite negative m))
          -- the names of the other doubles are not read, so this text is none of them
          have hother : ∀ s, Value.read? .double s = none →
              (Double.finite negative m).toText ≠ s := by
            rintro s hs rfl
            exact Option.some_ne_none _ (hread.symm.trans hs)
          show readValue? .double (Double.finite negative m).toText = _
          rw [readValue?, if_neg (hother _ (by decide)), if_neg (hother _ (by decide)),
            if_neg (hother _ (by decide))]
          exact hread

/-- The text of a value in a document tells it from the others of its kind. -/
theorem valueText_inj {v w : Value} (h : v.kind = w.kind) : valueText v = valueText w ↔ v = w :=
  Value.text_inj_of_read readValue?_valueText h

/-! ## The entries of a snapshot -/

/-- Names and values of entries. -/
def pairs (es : List Entry) : List (Bytes × Value) := es.map fun e => (e.name, e.value)

variable (run source : Bytes) (t : Table)

/-- The entry at a place is the variable there, with its place counted from one. -/
theorem entries_getElem? (i : Nat) :
    (ofTable run source t).entries[i]? =
      t.symbols[i]?.map fun y => ⟨i + 1, y.name, y.value⟩ := by
  rw [entries_ofTable, number, List.getElem?_map, List.getElem?_zipIdx, Option.map_map,
    Nat.add_comm 1 i]
  rfl

/-- A snapshot has as many entries as its table has variables. -/
theorem length_entries : (ofTable run source t).entries.length = t.size := by
  rw [entries_ofTable, number, List.length_map, List.length_zipIdx, Table.size]

/-- The two parts of a snapshot have its entries and no others. -/
theorem perm_entries :
    ((ofTable run source t).integers ++ (ofTable run source t).doubles).Perm
      (ofTable run source t).entries :=
  (List.merge_perm_append ..).symm

/-- Numbering and parting by a test on the value can be done in either order, as far as names and
values go. -/
theorem pairs_filter_number (p : Value → Bool) (ss : List Symbol) :
    pairs ((number ss).filter (p ·.value)) = Table.namedValues (ss.filter (p ·.value)) := by
  have hnumbered : ∀ n, pairs (((ss.zipIdx n).map fun q =>
      (⟨q.2, q.1.name, q.1.value⟩ : Entry)).filter (p ·.value)) =
        Table.namedValues (ss.filter (p ·.value)) := by
    induction ss with
    | nil => exact fun _ => rfl
    | cons y ss ih =>
        intro n
        rw [List.zipIdx_cons, List.map_cons, List.filter_cons, List.filter_cons]
        cases hp : p y.value with
        | true => exact congrArg (List.cons (y.name, y.value)) (ih (n + 1))
        | false => exact ih (n + 1)
  exact hnumbered 1

/-- The integers of a snapshot are those of its table. -/
theorem pairs_integers :
    pairs (ofTable run source t).integers = Table.namedValues (t.byKind .int) :=
  pairs_filter_number (·.kind == .int) t.symbols

/-- The doubles of a snapshot are those of its table. -/
theorem pairs_doubles :
    pairs (ofTable run source t).doubles = Table.namedValues (t.byKind .double) :=
  pairs_filter_number (·.kind == .double) t.symbols

/-- The names of the entries are those of the variables, each once. -/
theorem nodup_names_entries : ((ofTable run source t).entries.map Entry.name).Nodup := by
  have hnames : (number t.symbols).map Entry.name = t.symbols.map Symbol.name := by
    rw [number, List.map_map, ← List.zipIdx_map_fst 1 t.symbols, List.map_map,
      List.zipIdx_map_fst 1 t.symbols]
    rfl
  rw [entries_ofTable, hnames]
  exact t.nodup

/-! ## The dump by the entries -/

/-- The listing of entries: names and values, with commas between them. -/
def listing (es : List Entry) : Bytes :=
  (utf8 ", ").intercalate
    (es.map fun e => utf8 "[" ++ e.name ++ utf8 " = " ++ e.value.toText ++ utf8 "]")

/-- Entries are listed like the variables with the same names and values. -/
theorem listing_eq {es : List Entry} {ss : List Symbol} (h : pairs es = Table.namedValues ss) :
    listing es = Table.listing ss := by
  have hentries : listing es = (utf8 ", ").intercalate ((pairs es).map fun p =>
      utf8 "[" ++ p.1 ++ utf8 " = " ++ p.2.toText ++ utf8 "]") := by
    rw [pairs, List.map_map]
    rfl
  rw [hentries, h, Table.namedValues, List.map_map]
  rfl

/-- The dump of a table lists the two parts of its snapshot. -/
theorem dump_eq : t.dump =
    utf8 "Integers stored:\n" ++ listing (ofTable run source t).integers ++
      utf8 "\nDoubles stored:\n" ++ listing (ofTable run source t).doubles ++ utf8 "\n" := by
  rw [Table.dump, listing_eq (pairs_integers run source t), listing_eq (pairs_doubles run source t)]

end Snapshot

/-! ## The values in rows -/

namespace Row

/-- The value that a row has. -/
def value? (r : Row) : Option Value :=
  match r.kind with
  | .int => r.int.map Value.int
  | .double => r.double.map Value.double

/-- The row has a value as a database keeps it: zero loses its sign, what is no number is left out,
and all other values stay as they are. -/
structure Keeps (v : Value) (r : Row) : Prop where
  nan : v = .double .nan → r.value? = none
  zero : v = .double Double.zero.neg → r.value? = some (.double .zero)
  other : v ≠ .double .nan → v ≠ .double Double.zero.neg → r.value? = some v

/-- The row of an entry keeps its value. -/
theorem keeps_ofEntry (run : Bytes) (seq : Nat) (y : Symbol) :
    (ofEntry run ⟨seq, y.name, y.value⟩).Keeps y.value := by
  obtain ⟨name, value, line⟩ := y
  refine ⟨?_, ?_, ?_⟩
  · rintro ⟨⟩
    rfl
  · rintro ⟨⟩
    rfl
  · intro hnan hzero
    cases value with
    | int i => rfl
    | double d =>
        have hstored : stored d = some d :=
          stored_eq_some (fun h => hnan (congrArg Value.double h))
            fun h => hzero (congrArg Value.double h)
        show (stored d).map Value.double = some (.double d)
        rw [hstored, Option.map_some]

/-- Each row of a snapshot records the variable at its place, and keeps its value as a database
does. -/
theorem rows_spec (run source : Bytes) (t : Table) :
    (Snapshot.ofTable run source t).rows.length = t.size ∧
    ∀ (i : Nat) (y : Symbol), t.symbols[i]? = some y →
      ∃ r : Row, (Snapshot.ofTable run source t).rows[i]? = some r ∧ r.Records run (i + 1) y ∧
        r.Keeps y.value := by
  constructor
  · rw [rows_ofTable, (ofTable_spec run t).1]
  · intro i y hy
    refine ⟨ofEntry run ⟨i + 1, y.name, y.value⟩, ?_, records_ofEntry run (i + 1) y,
      keeps_ofEntry run (i + 1) y⟩
    rw [Snapshot.rows, List.getElem?_map, Snapshot.entries_getElem?, hy]
    rfl

end Row

/-! ## All views -/

namespace Snapshot

/-- **All views of a table agree.**  Of any table and its snapshot:

* the entries are the variables in order, with their places from one on;
* the integers and the doubles have the names and values of the variables of these kinds, in order;
* together they are the entries, and no name is there twice;
* the dump and the document list the integers and then the doubles, and the text of a value tells it
  from the others of its kind in both;
* there is one row for each variable, in order, with its place, its name, its kind and its value as
  a database keeps it: what is no number is left out, and zero loses its sign. -/
theorem views_agree (run source : Bytes) (t : Table) :
    let s := ofTable run source t
    (s.entries.length = t.size ∧
      ∀ i : Nat, s.entries[i]? = t.symbols[i]?.map fun y => ⟨i + 1, y.name, y.value⟩) ∧
    (pairs s.integers = Table.namedValues (t.byKind .int) ∧
      pairs s.doubles = Table.namedValues (t.byKind .double)) ∧
    ((s.integers ++ s.doubles).Perm s.entries ∧ (s.entries.map Entry.name).Nodup) ∧
    (t.dump = utf8 "Integers stored:\n" ++ listing s.integers ++
        utf8 "\nDoubles stored:\n" ++ listing s.doubles ++ utf8 "\n" ∧
      s.document = header "run" run ++ header "source" source ++
        list "integers" s.integers ++ list "doubles" s.doubles ∧
      ∀ v w : Value, v.kind = w.kind →
        (v.toText = w.toText ↔ v = w) ∧ (valueText v = valueText w ↔ v = w)) ∧
    s.rows.length = t.size ∧
    ∀ (i : Nat) (y : Symbol), t.symbols[i]? = some y →
      ∃ r : Row, s.rows[i]? = some r ∧ r.Records run (i + 1) y ∧ r.Keeps y.value := by
  intro s
  exact ⟨⟨length_entries run source t, entries_getElem? run source t⟩,
    ⟨pairs_integers run source t, pairs_doubles run source t⟩,
    ⟨perm_entries run source t, nodup_names_entries run source t⟩,
    ⟨dump_eq run source t, rfl, fun v w h => ⟨Value.toText_inj h, valueText_inj h⟩⟩,
    Row.rows_spec run source t⟩

/-- The rows of a table do not have all values of its variables: here `x` is no number, and `z` is a
zero with a sign. -/
theorem rows_differ_from_variables :
    let x : Symbol := ⟨utf8 "x", .double .nan, 1⟩
    let z : Symbol := ⟨utf8 "z", .double Double.zero.neg, 2⟩
    ∃ t, (Table.empty.declare x.name x.value 1 >>= fun t => t.declare z.name z.value 2) = .ok t ∧
      t.symbols = [x, z] ∧
      let rows := (ofTable (utf8 "r") (utf8 "s") t).rows
      (rows.map fun r => (r.name, r.value?)) =
        [(x.name, none), (z.name, some (.double .zero))] ∧
      ¬ ∀ (i : Nat) (y : Symbol), t.symbols[i]? = some y →
        ∃ r : Row, rows[i]? = some r ∧ r.value? = some y.value := by
  intro x z
  refine ⟨⟨[x, z], by decide⟩, by decide, rfl, ?_⟩
  rw [Row.rows_ofTable]
  refine ⟨by decide, ?_⟩
  intro h
  obtain ⟨r, hr, hvalue⟩ := h 0 x rfl
  obtain rfl := Option.some.inj hr
  revert hvalue
  decide

end Snapshot

end LineCalc
