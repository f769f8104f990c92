import LineCalc.Proofs.Statement.Grammar
import LineCalc.Proofs.Text.Blank
import LineCalc.Proofs.Token.Layout
import LineCalc.Line.Reading
/-!
# What is read from a line

* `LineKind.startsWithWord_append` : the kind of a line hangs on its first word;
* `Reading.outcome_eq_ok_iff` : a line is read just if its tokens match the grammar of its kind;
* `Reading.exists_scan_eq` : its tokens are spelled, and the last one is the end.
-/
namespace LineCalc

/-! ## The kind of a line -/

namespace LineKind

/-- A line starts with a word just if its own first word is that one. -/
theorem startsWithWord_append {word name rest : Bytes} (hword : ∀ b ∈ word, Bytes.isWord b)
    (hname : ∀ b ∈ name, Bytes.isWord b) (hrest : ∀ b ∈ rest.head?, Bytes.isWord b = false) :
    startsWithWord word (name ++ rest) = (word == name) := by
  induction word generalizing name with
  | nil =>
      cases name with
      | nil =>
          cases rest with
          | nil => rfl
          | cons b r => simp [startsWithWord, List.isPrefixOf?, hrest b rfl]
      | cons c n =>
          have := hname c List.mem_cons_self
          simp [startsWithWord, List.isPrefixOf?, this]
  | cons a w ih =>
      obtain ⟨ha, hw⟩ := List.forall_mem_cons.1 hword
      cases name with
      | nil =>
          cases rest with
          | nil => rfl
          | cons b r =>
              have hne : a ≠ b := by
                rintro rfl
                simp [hrest a rfl] at ha
              simp [startsWithWord, List.isPrefixOf?, hne]
      | cons c n =>
          have ih := ih hw (fun b hb => hname b (List.mem_cons_of_mem _ hb))
          by_cases hac : a = c
          · subst hac
            simpa [startsWithWord, List.isPrefixOf?] using ih
          · simp [startsWithWord, List.isPrefixOf?, hac]

/-- Only a line whose first word is `print` in front of a bracket is a print line. -/
theorem printOpening_isPrefixOf_append {name rest : Bytes} (hname : ∀ b ∈ name, Bytes.isWord b)
    (hrest : ∀ b ∈ rest.head?, Bytes.isWord b = false ∧ b ≠ 0x28) :
    printOpening.isPrefixOf (name ++ rest) = false := by
  rw [Bool.eq_false_iff, ne_eq, List.isPrefixOf_iff_prefix]
  rintro ⟨t, ht⟩
  have hprint : printOpening = utf8 "print" ++ [0x28] := by decide
  have hword : ∀ b ∈ utf8 "print", Bytes.isWord b := by decide
  have hopen : ∀ b ∈ (0x28 :: t).head?, Bytes.isWord b = false := by rintro b ⟨⟩; decide
  have hdrop := (Layout.span_append hname fun b hb => (hrest b hb).1).2
  rw [← ht, hprint, List.append_assoc, List.cons_append, List.nil_append,
    (Layout.span_append hword hopen).2] at hdrop
  exact (hrest 0x28 (by rw [← hdrop]; rfl)).2 rfl

/-- A line is a declaration just if its first word is a type. -/
theorem ofLine_append {name rest : Bytes} (hname : ∀ b ∈ name, Bytes.isWord b)
    (hrest : ∀ b ∈ rest.head?, Bytes.isWord b = false ∧ b ≠ 0x28) :
    ofLine (name ++ rest) =
      if name = utf8 "int" ∨ name = utf8 "double" then declaration else assignment := by
  have hbreak : ∀ b ∈ rest.head?, Bytes.isWord b = false := fun b hb => (hrest b hb).1
  rw [ofLine, startsWithWord_append (by decide) hname hbreak,
    startsWithWord_append (by decide) hname hbreak, printOpening_isPrefixOf_append hname hrest]
  simp only [Bool.or_eq_true, beq_iff_eq, Bool.false_eq_true, if_false, eq_comm (b := name)]

/-- The kind of a line that starts as a print line. -/
theorem ofLine_printOpening_append (rest : Bytes) : ofLine (printOpening ++ rest) = print := by
  have hopening : printOpening = [0x70, 0x72, 0x69, 0x6e, 0x74, 0x28] := by decide
  have hint : utf8 "int" = [0x69, 0x6e, 0x74] := by decide
  have hdouble : utf8 "double" = [0x64, 0x6f, 0x75, 0x62, 0x6c, 0x65] := by decide
  simp [ofLine, startsWithWord, hopening, hint, hdouble, List.isPrefixOf?]

/-- The expression of a print line is what its words enclose, without its white space. -/
theorem printBody?_eq_some_iff {line body : Bytes} :
    printBody? line = some body ↔
      ∃ inner, line = printOpening ++ (inner ++ printClosing) ∧ Text.squeeze inner = body := by
  simp only [printBody?, Option.map_eq_some_iff, Option.bind_eq_some_iff,
    List.isPrefixOf?_eq_some_iff_append_eq, List.isSuffixOf?_eq_some_iff_append_eq]
  constructor
  · rintro ⟨inner, ⟨rest, rfl, rfl⟩, hbody⟩
    exact ⟨inner, rfl, hbody⟩
  · rintro ⟨inner, rfl, hbody⟩
    exact ⟨inner, ⟨_, rfl, rfl⟩, hbody⟩

end LineKind

/-! ## The tokens of a line -/

namespace Reading

/-- The tokens of a line without its end. -/
def units (lenient : Bool) (number : Int) (kind : LineKind) (line body : Bytes) : List Token :=
  (scan lenient number kind line body).takeWhile (·.kind != .eof)

/-- The text that the tokens of a line are cut from. -/
def scanned (kind : LineKind) (line body : Bytes) : Bytes :=
  match kind with
  | .print => body
  | _ => line

/-- In lenient mode the tokens of a print line are those that an expression may hold. -/
theorem scan_eq (lenient : Bool) (number : Int) (kind : LineKind) (line body : Bytes) :
    scan lenient number kind line body =
      if lenient && kind == .print then Token.keepRecognized (Token.scan number body)
      else Token.scan number (scanned kind line body) := by
  cases kind <;> cases lenient <;> rfl

/-- The tokens of a line are spelled, unless they are illegal, and end with its only end. -/
theorem exists_scan_eq (lenient : Bool) (number : Int) (kind : LineKind) (line body : Bytes) :
    (∃ last : Token, last.kind = .eof ∧ scan lenient number kind line body =
      units lenient number kind line body ++ [last]) ∧
    ∀ t ∈ units lenient number kind line body, t.kind ≠ .illegal →
      Layout.Spells t.kind t.lexeme := by
  obtain ⟨ts, last, hscan, hlast, hend, hspells⟩ :=
    Layout.exists_scan_eq number (scanned kind line body)
  obtain ⟨us, husub, hus⟩ : ∃ us, (∀ t ∈ us, t ∈ ts) ∧
      scan lenient number kind line body = us ++ [last] := by
    rw [scan_eq]
    split
    · next h =>
        obtain ⟨-, rfl⟩ : lenient = true ∧ kind = .print := by simpa using h
        refine ⟨Token.keepRecognized ts, fun t ht => (List.mem_filter.1 ht).1, ?_⟩
        rw [show Token.scan number body = ts ++ [last] from hscan, Token.keepRecognized,
          List.filter_append]
        simp [hlast]
        rfl
    · exact ⟨ts, fun t ht => ht, hscan⟩
  have hunits : units lenient number kind line body = us := by
    rw [units, hus, Statement.takeWhile_append_end (fun t ht => hend t (husub t ht)) hlast]
  rw [hunits]
  exact ⟨⟨last, hlast, hus⟩, fun t ht => hspells t (husub t ht)⟩

/-- The tokens of a line are on it. -/
theorem line_of_mem_units {lenient : Bool} {number : Int} {kind : LineKind} {line body : Bytes}
    {t : Token} (ht : t ∈ units lenient number kind line body) : t.line = number := by
  have hscan : t ∈ scan lenient number kind line body := (List.takeWhile_sublist _).subset ht
  rw [scan_eq] at hscan
  split at hscan
  · exact Layout.line_of_mem_scan (List.mem_filter.1 hscan).1
  · exact Layout.line_of_mem_scan hscan

/-- The tokens of a layout without its end are its pieces, each at its column. -/
theorem units_of_isLayout {number : Int} {kind : LineKind} {line body : Bytes} {ps : List Piece}
    {tail : Bytes} (h : Layout.IsLayout ps tail)
    (htext : scanned kind line body = Layout.render ps tail) :
    units false number kind line body = Layout.place number 1 ps := by
  have hscan : scan false number kind line body = _ := scan_eq false number kind line body
  rw [Bool.false_and, if_neg (by simp), htext, Layout.scan_render h] at hscan
  rw [units, hscan]
  exact Statement.takeWhile_append_end h.kind_ne_eof rfl

/-! ## The outcome -/

/-- **What is read.**  A line is read just if its tokens match the grammar of its kind. -/
theorem outcome_eq_ok_iff {lenient : Bool} {number : Int} {line : Bytes} {s : Statement} :
    (ofLine lenient number line).outcome = .ok s ↔
      match LineKind.ofLine line with
      | .declaration => ∃ type name value, s = .declaration type name value ∧
          Statement.IsDeclaration type name value (units lenient number .declaration line [])
      | .assignment => ∃ name value, s = .assignment name value ∧
          Statement.IsAssignment name value (units lenient number .assignment line [])
      | .print => ∃ body e, LineKind.printBody? line = some body ∧
          s = .printing number line body e ∧
          e.IsTreeOf (units lenient number .print line body) := by
  rw [ofLine]
  cases hkind : LineKind.ofLine line with
  | declaration =>
      simp only [ofKind, Except.mapError_eq_ok_iff]
      exact Statement.parseDeclaration_eq_ok_iff
  | assignment =>
      simp only [ofKind, Except.mapError_eq_ok_iff]
      exact Statement.parseAssignment_eq_ok_iff
  | print =>
      cases hbody : LineKind.printBody? line with
      | none => simp
      | some body =>
          simp only [ofKind, Except.mapError_eq_ok_iff, Statement.parse_print_eq_ok_iff]
          constructor
          · rintro ⟨e, htree, hs⟩
            exact ⟨body, e, rfl, hs, htree⟩
          · rintro ⟨body, e, ⟨⟩, hs, htree⟩
            exact ⟨e, htree, hs⟩

end Reading

end LineCalc
