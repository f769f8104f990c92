import LineCalc.Proofs.Decimal.Text
import LineCalc.Proofs.Text.Parts
import LineCalc.Table
import Mathlib.Data.List.Basic
/-!
# What the listing shows

The listing of a table can be read back: no name and no value can be taken for one of its
separators, and every value is told by its text.

* `Value.read?_toText` : a finite value is read back from its text;
* `Table.listing_injective` : a listing shows the names and the texts of the values, in their
  order;
* `Table.IsPlain.dump_eq_iff` : two tables have the same dump just if they have the same names and
  values of each kind, in the same order.
-/
namespace LineCalc

/-! ## Values as text -/

/-- **A value is read back from its text**, at its kind, if it is finite. -/
theorem Value.read?_toText {v : Value} (h : v.IsFinite) : read? v.kind v.toText = some v := by
  cases v with
  | int i =>
      show (readInt? (Bytes.ofInt i.toInt)).map Value.int = some (.int i)
      rw [readInt?_ofInt, Option.map_some]
  | double d =>
      show (readDouble? d.toText).map Value.double = some (.double d)
      rw [Double.readDouble?_toText (h d rfl), Option.map_some]

/-- Finite values are written with numeric bytes only. -/
theorem Value.isNumeric_of_mem_toText {v : Value} (h : v.IsFinite) :
    ∀ b ∈ v.toText, Bytes.isNumeric b := by
  cases v with
  | int i => exact Bytes.isNumeric_of_mem_ofInt i.toInt
  | double d => exact Double.isNumeric_of_mem_toText (h d rfl)

/-! ## Plain variables -/

/-- A variable that is listed without loss: its name is a word and its value is finite. -/
structure Symbol.IsPlain (s : Symbol) : Prop where
  name : ∀ b ∈ s.name, Bytes.isWord b
  finite : s.value.IsFinite

namespace Table

/-! ## Entries -/

/-- A variable as it is listed. -/
def entry (s : Symbol) : Bytes :=
  utf8 "[" ++ s.name ++ utf8 " = " ++ s.value.toText ++ utf8 "]"

/-- An entry, byte by byte where it has separators. -/
theorem entry_append (s : Symbol) (r : Bytes) : entry s ++ r =
    0x5b :: (s.name ++ 0x20 :: 0x3d :: 0x20 :: (s.value.toText ++ 0x5d :: r)) := by
  have hopen : utf8 "[" = [0x5b] := by decide
  have hequals : utf8 " = " = [0x20, 0x3d, 0x20] := by decide
  have hclose : utf8 "]" = [0x5d] := by decide
  simp [entry, hopen, hequals, hclose]

/-- An entry is told from what is behind it, and shows the name and the text of the value. -/
theorem entry_append_inj {s s' : Symbol} {r r' : Bytes} (hs : s.IsPlain) (hs' : s'.IsPlain)
    (h : entry s ++ r = entry s' ++ r') :
    s.name = s'.name ∧ s.value.toText = s'.value.toText ∧ r = r' := by
  have hname : ∀ {s : Symbol}, s.IsPlain → ∀ b ∈ s.name, b ≠ 0x20 := by
    rintro s hs b hb rfl
    cases hs.name _ hb
  have hvalue : ∀ {s : Symbol}, s.IsPlain → ∀ b ∈ s.value.toText, b ≠ 0x5d := by
    rintro s hs b hb rfl
    cases Value.isNumeric_of_mem_toText hs.finite _ hb
  rw [entry_append, entry_append] at h
  obtain ⟨hnames, h⟩ := Bytes.append_cons_inj (hname hs) (hname hs') (List.cons_injective h)
  obtain ⟨hvalues, h⟩ := Bytes.append_cons_inj (hvalue hs) (hvalue hs')
    (List.cons_injective (List.cons_injective h))
  exact ⟨hnames, hvalues, h⟩

/-- No entry has a line break. -/
theorem ne_newline_of_mem_entry {s : Symbol} (hs : s.IsPlain) : ∀ b ∈ entry s, b ≠ 0x0a := by
  rintro b hb rfl
  rw [← List.append_nil (entry s), entry_append] at hb
  simp only [List.mem_cons, List.mem_append, List.not_mem_nil, or_false] at hb
  rcases hb with hb | hb | hb | hb | hb | hb | hb
  · cases hb
  · cases hs.name _ hb
  · cases hb
  · cases hb
  · cases hb
  · cases Value.isNumeric_of_mem_toText hs.finite _ hb
  · cases hb

/-! ## Listings -/

/-- What is listed behind an entry. -/
def moreEntries : List Symbol → Bytes
  | [] => []
  | s :: ss => 0x2c :: 0x20 :: listing (s :: ss)

/-- A listing is its first entry and the rest. -/
theorem listing_cons (s : Symbol) (ss : List Symbol) :
    listing (s :: ss) = entry s ++ moreEntries ss := by
  have hcomma : utf8 ", " = [0x2c, 0x20] := by decide
  cases ss with
  | nil => simp [listing, moreEntries, entry]
  | cons s' ss => simp [listing, moreEntries, entry, hcomma]

/-- Names and the texts of the values. -/
def namedTexts (ss : List Symbol) : List (Bytes × Bytes) := ss.map fun s => (s.name, s.value.toText)

/-- **A listing shows names and texts** of the values, in their order. -/
theorem listing_injective {ss ss' : List Symbol} (hss : ∀ s ∈ ss, s.IsPlain)
    (hss' : ∀ s ∈ ss', s.IsPlain) (h : listing ss = listing ss') :
    namedTexts ss = namedTexts ss' := by
  have hempty : ∀ s ss, listing (s :: ss) ≠ [] := by
    intro s ss
    rw [listing_cons, entry_append]
    exact List.cons_ne_nil _ _
  induction ss generalizing ss' with
  | nil =>
      cases ss' with
      | nil => rfl
      | cons s' ss' => exact absurd h.symm (hempty s' ss')
  | cons s ss ih =>
      cases ss' with
      | nil => exact absurd h (hempty s ss)
      | cons s' ss' =>
          obtain ⟨hs, hss⟩ := List.forall_mem_cons.1 hss
          obtain ⟨hs', hss'⟩ := List.forall_mem_cons.1 hss'
          rw [listing_cons, listing_cons] at h
          obtain ⟨hname, hvalue, hmore⟩ := entry_append_inj hs hs' h
          -- a comma tells whether there is another entry
          have hrest : listing ss = listing ss' := by
            cases ss with
            | nil =>
                cases ss' with
                | nil => rfl
                | cons => cases hmore
            | cons =>
                cases ss' with
                | nil => cases hmore
                | cons => exact List.cons_injective (List.cons_injective hmore)
          have hhere : (s.name, s.value.toText) = (s'.name, s'.value.toText) :=
            Prod.ext hname hvalue
          exact congrArg₂ List.cons hhere (ih hss hss' hrest)

/-- No listing has a line break. -/
theorem ne_newline_of_mem_listing {ss : List Symbol} (hss : ∀ s ∈ ss, s.IsPlain) :
    ∀ b ∈ listing ss, b ≠ 0x0a := by
  induction ss with
  | nil => exact List.forall_mem_nil _
  | cons s ss ih =>
      obtain ⟨hs, hss⟩ := List.forall_mem_cons.1 hss
      rw [listing_cons]
      refine List.forall_mem_append.2 ⟨ne_newline_of_mem_entry hs, ?_⟩
      cases ss with
      | nil => exact List.forall_mem_nil _
      | cons =>
          exact List.forall_mem_cons.2 ⟨by decide, List.forall_mem_cons.2 ⟨by decide, ih hss⟩⟩

/-! ## Dumps -/

/-- A table that is listed without loss. -/
def IsPlain (t : Table) : Prop := ∀ s ∈ t.symbols, s.IsPlain

/-- Names and values, without the lines of the declarations. -/
def namedValues (ss : List Symbol) : List (Bytes × Value) := ss.map fun s => (s.name, s.value)

/-- Variables of one kind are told by the texts of their values. -/
theorem namedValues_eq_of_texts_eq {k : Kind} {ss ss' : List Symbol}
    (hss : ∀ s ∈ ss, s.IsPlain ∧ s.value.kind = k) (hss' : ∀ s ∈ ss', s.IsPlain ∧ s.value.kind = k)
    (h : namedTexts ss = namedTexts ss') : namedValues ss = namedValues ss' := by
  have hread : ∀ ss : List Symbol, (∀ s ∈ ss, s.IsPlain ∧ s.value.kind = k) →
      (namedValues ss).map (fun p => (p.1, some p.2)) =
        (namedTexts ss).map fun p => (p.1, Value.read? k p.2) := by
    intro ss hss
    rw [namedValues, namedTexts, List.map_map, List.map_map]
    apply List.map_congr_left
    intro s hs
    obtain ⟨hplain, rfl⟩ := hss s hs
    show (s.name, some s.value) = (s.name, Value.read? s.value.kind s.value.toText)
    rw [Value.read?_toText hplain.finite]
  have hinjective : Function.Injective fun p : Bytes × Value => (p.1, some p.2) := by
    rintro ⟨n, v⟩ ⟨n', v'⟩ heq
    cases heq
    rfl
  apply List.map_injective_iff.2 hinjective
  rw [hread ss hss, h, hread ss' hss']

/-- The variables of a kind in a plain table. -/
theorem IsPlain.byKind {t : Table} (ht : t.IsPlain) (k : Kind) :
    ∀ s ∈ t.byKind k, s.IsPlain ∧ s.value.kind = k := by
  intro s hs
  obtain ⟨hmem, hkind⟩ := List.mem_filter.1 hs
  exact ⟨ht s hmem, eq_of_beq hkind⟩

/-- A dump shows the names and values of each kind. -/
theorem IsPlain.namedValues_eq {t u : Table} (ht : t.IsPlain) (hu : u.IsPlain)
    (h : t.dump = u.dump) : ∀ k, namedValues (t.byKind k) = namedValues (u.byKind k) := by
  have hdump : ∀ t : Table, t.dump = utf8 "Integers stored:\n" ++ (listing (t.byKind .int) ++
      0x0a :: (utf8 "Doubles stored:\n" ++ (listing (t.byKind .double) ++ utf8 "\n"))) := by
    intro t
    have hmiddle : utf8 "\nDoubles stored:\n" = 0x0a :: utf8 "Doubles stored:\n" := by decide
    simp [dump, hmiddle]
  have hline : ∀ {t : Table}, t.IsPlain → ∀ b ∈ listing (t.byKind .int), b ≠ 0x0a :=
    fun ht => ne_newline_of_mem_listing fun s hs => (ht.byKind .int s hs).1
  rw [hdump, hdump] at h
  obtain ⟨hints, h⟩ := Bytes.append_cons_inj (hline ht) (hline hu) (List.append_cancel_left h)
  have hdoubles := List.append_cancel_right (List.append_cancel_left h)
  have hkinds : ∀ k, listing (t.byKind k) = listing (u.byKind k) := by
    intro k
    cases k with
    | int => exact hints
    | double => exact hdoubles
  intro k
  apply namedValues_eq_of_texts_eq (ht.byKind k) (hu.byKind k)
  exact listing_injective (fun s hs => (ht.byKind k s hs).1) (fun s hs => (hu.byKind k s hs).1)
    (hkinds k)

/-- Listings show nothing but names and values. -/
theorem listing_eq_of_namedValues_eq {ss ss' : List Symbol} (h : namedValues ss = namedValues ss') :
    listing ss = listing ss' := by
  have hentries : ∀ ss : List Symbol, listing ss = (utf8 ", ").intercalate ((namedValues ss).map
      fun p => utf8 "[" ++ p.1 ++ utf8 " = " ++ p.2.toText ++ utf8 "]") := by
    intro ss
    rw [namedValues, List.map_map]
    rfl
  rw [hentries, hentries, h]

/-- **Dumps lose nothing.**  Plain tables have the same dump just if they have the same names and
values of each kind, in the same order. -/
theorem IsPlain.dump_eq_iff {t u : Table} (ht : t.IsPlain) (hu : u.IsPlain) :
    t.dump = u.dump ↔ ∀ k, namedValues (t.byKind k) = namedValues (u.byKind k) := by
  constructor
  · exact ht.namedValues_eq hu
  · intro h
    rw [dump, dump, listing_eq_of_namedValues_eq (h .int), listing_eq_of_namedValues_eq (h .double)]

end Table

end LineCalc
