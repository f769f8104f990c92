import LineCalc.Proofs.Line.Declared
import LineCalc.Proofs.Line.Written
/-!
# The grammar of lines

Which lines are declarations and assignments is told here by their bytes, apart from the scanner
and the parser.  A line is read as what it says, and a line that says nothing of the kind is
complained about.

* `Phrase.Matches` : the lines that say a declaration or an assignment;
* `Phrase.Matches.exists_statement`, `Phrase.matches_of_writes` : a line says what the statements
  say that it writes;
* `Reading.phrase_iff_matches` : so it is read just as what it says.
-/
namespace LineCalc

/-! ## Texts -/

/-- What a declaration or an assignment says. -/
inductive Phrase where
  /-- A variable of a type has a name, and the value of a literal if one is given. -/
  | declaration (type name : Bytes) (value : Option Bytes)
  /-- A variable takes the value of a literal. -/
  | literal (name value : Bytes)
  /-- A variable takes the value of another. -/
  | copy (name source : Bytes)
  deriving DecidableEq

namespace Phrase

/-- The bytes that may stand between words. -/
def blanks : Bytes := [0x20, 0x09, 0x0d, 0x0a]

/-- The bytes that start a name. -/
def letters : Bytes := "ABCDEFGHIJKLMNOPQRSTUVWXYZ_abcdefghijklmnopqrstuvwxyz"

/-- The bytes of numbers. -/
def digits : Bytes := "0123456789"

/-- Any number of blanks. -/
def IsBlank (s : Bytes) : Prop := ∀ b ∈ s, b ∈ blanks

/-- A letter, and letters and digits behind it. -/
def IsName (s : Bytes) : Prop :=
  ∃ b r, s = b :: r ∧ b ∈ letters ∧ ∀ c ∈ r, c ∈ letters ∨ c ∈ digits

/-- Digits, and perhaps a point and more digits behind them. -/
def IsNumber (s : Bytes) : Prop :=
  ∃ ds, ds ≠ [] ∧ (∀ d ∈ ds, d ∈ digits) ∧
    (s = ds ∨ ∃ fs, (∀ d ∈ fs, d ∈ digits) ∧ s = ds ++ (utf8 "." ++ fs))

/-- A number behind a sign, or without one. -/
def IsLiteral (s : Bytes) : Prop :=
  ∃ sign number, IsSign sign ∧ IsNumber number ∧ s = sign ++ number

/-- One of the two type words. -/
def IsType (s : Bytes) : Prop := s = utf8 "int" ∨ s = utf8 "double"

/-- Blanks, and a semicolon between them. -/
def IsClosing (s : Bytes) : Prop :=
  ∃ before tail, IsBlank before ∧ IsBlank tail ∧ s = before ++ (utf8 ";" ++ tail)

/-- The line says the phrase. -/
inductive Matches : Phrase → Bytes → Prop
  | declaration {type name gap closing : Bytes} (htype : IsType type) (hname : IsName name)
      (hfree : ¬ IsType name) (hprint : name ≠ utf8 "print") (hgap : IsBlank gap)
      (hne : gap ≠ []) (hclosing : IsClosing closing) :
      Matches (.declaration type name none) (type ++ (gap ++ (name ++ closing)))
  | initialized {type name value gap left right closing : Bytes} (htype : IsType type)
      (hname : IsName name) (hfree : ¬ IsType name) (hprint : name ≠ utf8 "print")
      (hvalue : IsLiteral value) (hgap : IsBlank gap) (hne : gap ≠ []) (hleft : IsBlank left)
      (hright : IsBlank right) (hclosing : IsClosing closing) :
      Matches (.declaration type name (some value))
        (type ++ (gap ++ (name ++ (left ++ (utf8 "=" ++ (right ++ (value ++ closing)))))))
  | literal {name value left right closing : Bytes} (hname : IsName name)
      (hfree : ¬ IsType name) (hvalue : IsLiteral value) (hleft : IsBlank left)
      (hright : IsBlank right) (hclosing : IsBlank closing ∨ IsClosing closing) :
      Matches (.literal name value)
        (name ++ (left ++ (utf8 "=" ++ (right ++ (value ++ closing)))))
  | copy {name source left right closing : Bytes} (hname : IsName name)
      (hfree : ¬ IsType name) (hsource : IsName source) (hleft : IsBlank left)
      (hright : IsBlank right) (hclosing : IsBlank closing ∨ IsClosing closing) :
      Matches (.copy name source)
        (name ++ (left ++ (utf8 "=" ++ (right ++ (source ++ closing)))))

/-! ## The bytes of the scanner -/

section Bytes

variable {b : UInt8} {s : Bytes}

/-- The bytes of a class in their order. -/
theorem mem_filter_range_iff {p : UInt8 → Bool} :
    b ∈ ((List.range 256).map UInt8.ofNat).filter p ↔ p b := by
  have hb : b ∈ (List.range 256).map UInt8.ofNat :=
    List.mem_map.2 ⟨b.toNat, List.mem_range.2 b.toNat_lt, UInt8.ofNat_toNat⟩
  rw [List.mem_filter, and_iff_right hb]

/-- The scanner skips just the blanks. -/
theorem mem_blanks_iff : b ∈ blanks ↔ isSpace b := by
  simp [blanks, isSpace, or_assoc]

/-- The scanner knows the letters. -/
theorem mem_letters_iff : b ∈ letters ↔ Bytes.isLetter b := by
  have hletters : letters = ((List.range 256).map UInt8.ofNat).filter Bytes.isLetter := by
    decide +kernel
  rw [hletters, mem_filter_range_iff]

/-- The scanner knows the digits. -/
theorem mem_digits_iff : b ∈ digits ↔ Bytes.isDigit b := by
  have hdigits : digits = ((List.range 256).map UInt8.ofNat).filter Bytes.isDigit := by
    decide +kernel
  rw [hdigits, mem_filter_range_iff]

/-- Blanks are gaps. -/
theorem isBlank_iff : IsBlank s ↔ Statement.IsGap s :=
  forall₂_congr fun _ _ => mem_blanks_iff

/-- Names are spelled as names. -/
theorem isName_iff : IsName s ↔ Layout.Spells .ident s := by
  simp only [IsName, Layout.Spells, mem_letters_iff, mem_digits_iff, Bytes.isWord, Bool.or_eq_true]

/-- Numbers are spelled as numbers. -/
theorem isNumber_iff : IsNumber s ↔ Layout.Spells .number s := by
  have hpoint : utf8 "." = [0x2e] := by decide
  simp only [IsNumber, Layout.Spells, mem_digits_iff, hpoint]
  constructor
  · rintro ⟨ds, hne, hds, hs⟩
    obtain ⟨d, ds, rfl⟩ := List.exists_cons_of_ne_nil hne
    obtain ⟨hd, hds⟩ := List.forall_mem_cons.1 hds
    exact ⟨d, ds, hd, hds, hs⟩
  · rintro ⟨d, ds, hd, hds, hs⟩
    exact ⟨d :: ds, by simp, List.forall_mem_cons.2 ⟨hd, hds⟩, hs⟩

/-- A closing is a semicolon with gaps around it. -/
theorem isClosing_iff : IsClosing s ↔ Statement.IsSemicolon s := by
  simp only [IsClosing, Statement.IsSemicolon, isBlank_iff]

end Bytes

end Phrase

/-! ## What statements say -/

/-- What a statement says; a print says nothing of the kind. -/
def Statement.phrase? : Statement → Option Phrase
  | declaration t n v => some (.declaration t.lexeme n.lexeme (v.map Literal.text))
  | assignment n (.number l) => some (.literal n.lexeme l.text)
  | assignment n (.ident t) => some (.copy n.lexeme t.lexeme)
  | _ => none

/-- What a statement says hangs on its outline only. -/
theorem Statement.phrase?_outline (s : Statement) : s.outline.phrase? = s.phrase? := by
  cases s with
  | declaration t n v =>
      cases v with
      | none => rfl
      | some l => simp only [outline, phrase?, Option.map_some, l.text_unplaced]; rfl
  | assignment n e =>
      cases e with
      | number l => simp only [outline, phrase?, Expr.unplaced, l.text_unplaced]; rfl
      | ident t => rfl
      | unary t e => rfl
      | binary t l r => rfl
  | print k w b v => rfl

/-- Every well-formed declaration and assignment says something. -/
theorem Statement.exists_phrase {s : Statement} (hwf : s.WellFormed) (hprint : s.kind ≠ .print) :
    ∃ x, s.phrase? = some x := by
  cases s with
  | declaration t n v => exact ⟨_, rfl⟩
  | assignment n e =>
      obtain ⟨-, -, -, hsource⟩ := hwf
      cases hsource with
      | ident t ht => exact ⟨_, rfl⟩
      | number l hl => exact ⟨_, rfl⟩
  | print k w b v => exact absurd rfl hprint

namespace Phrase

variable {x : Phrase} {line : Bytes}

/-- A literal is the text of one that the grammar knows. -/
theorem isLiteral_iff {s : Bytes} : IsLiteral s ↔ ∃ l : Literal, l.IsSigned ∧
    (∀ u ∈ l.tokens, Layout.Spells u.kind u.lexeme) ∧ l.text = s := by
  constructor
  · rintro ⟨sign, number, hsign, hnumber, rfl⟩
    exact ⟨.ofTexts sign number, Literal.isSigned_ofTexts hsign,
      Literal.spells_ofTexts hsign (isNumber_iff.1 hnumber), Literal.text_ofTexts⟩
  · rintro ⟨⟨sign, n⟩, ⟨hnumber, hsign⟩, hspells, rfl⟩
    have hnumber : n.kind = .number := hnumber
    have hspelled := hspells n (by simp [Literal.tokens])
    rw [hnumber, ← isNumber_iff] at hspelled
    cases sign with
    | none => exact ⟨[], n.lexeme, .inl rfl, hspelled, rfl⟩
    | some u =>
        refine ⟨u.lexeme, n.lexeme, ?_, hspelled, rfl⟩
        have hu := hspells u (by simp [Literal.tokens])
        rcases (hsign u rfl).1 with hk | hk
        · rw [hk] at hu
          exact .inr (.inl (Layout.text_of_spells rfl (by simp) hu))
        · rw [hk] at hu
          exact .inr (.inr (Layout.text_of_spells rfl (by simp) hu))

/-- The words that no variable can be declared as. -/
theorem isReserved_eq_false_iff {name : Bytes} :
    isReserved name = false ↔ ¬ IsType name ∧ name ≠ utf8 "print" := by
  simp [isReserved, IsType]

/-- **What a line says, a statement says that the line writes.** -/
theorem Matches.exists_statement (h : x.Matches line) :
    ∃ s : Statement, s.phrase? = some x ∧ s.WellFormed ∧ s.Spelled ∧ s.Writes line := by
  cases h with
  | @declaration type name gap closing htype hname hfree hprint hgap hne hclosing =>
      refine ⟨.declaration ⟨.ident, type, 0, 0⟩ ⟨.ident, name, 0, 0⟩ none, rfl,
        ⟨rfl, htype, rfl, isReserved_eq_false_iff.2 ⟨hfree, hprint⟩, by simp⟩, ?_, ?_⟩
      · exact List.forall_mem_cons.2 ⟨Layout.spells_type htype,
          List.forall_mem_cons.2 ⟨isName_iff.1 hname, by simp⟩⟩
      · exact ⟨gap, [], [], closing, isBlank_iff.1 hgap, hne, Statement.isGap_nil,
          Statement.isGap_nil, isClosing_iff.1 hclosing, rfl⟩
  | @initialized type name value gap left right closing htype hname hfree hprint hvalue hgap hne
      hleft hright hclosing =>
      obtain ⟨l, hl, hspells, rfl⟩ := isLiteral_iff.1 hvalue
      refine ⟨.declaration ⟨.ident, type, 0, 0⟩ ⟨.ident, name, 0, 0⟩ (some l), rfl,
        ⟨rfl, htype, rfl, isReserved_eq_false_iff.2 ⟨hfree, hprint⟩, ?_⟩, ?_, ?_⟩
      · rintro _ ⟨⟩
        exact hl
      · exact List.forall_mem_cons.2 ⟨Layout.spells_type htype,
          List.forall_mem_cons.2 ⟨isName_iff.1 hname, hspells⟩⟩
      · refine ⟨gap, left, right, closing, isBlank_iff.1 hgap, hne, isBlank_iff.1 hleft,
          isBlank_iff.1 hright, isClosing_iff.1 hclosing, ?_⟩
        simp only [Statement.initialText, List.append_assoc]
  | @literal name value left right closing hname hfree hvalue hleft hright hclosing =>
      obtain ⟨l, hl, hspells, rfl⟩ := isLiteral_iff.1 hvalue
      rw [isBlank_iff, isClosing_iff] at hclosing
      exact ⟨.assignment ⟨.ident, name, 0, 0⟩ (.number l), rfl,
        ⟨rfl, fun h => hfree (.inl h), fun h => hfree (.inr h), .number l hl⟩,
        List.forall_mem_cons.2 ⟨isName_iff.1 hname, hspells⟩,
        left, right, closing, isBlank_iff.1 hleft, isBlank_iff.1 hright, hclosing, rfl⟩
  | @copy name source left right closing hname hfree hsource hleft hright hclosing =>
      rw [isBlank_iff, isClosing_iff] at hclosing
      exact ⟨.assignment ⟨.ident, name, 0, 0⟩ (.ident ⟨.ident, source, 0, 0⟩), rfl,
        ⟨rfl, fun h => hfree (.inl h), fun h => hfree (.inr h), .ident _ rfl⟩,
        List.forall_mem_cons.2 ⟨isName_iff.1 hname,
          List.forall_mem_cons.2 ⟨isName_iff.1 hsource, by simp⟩⟩,
        left, right, closing, isBlank_iff.1 hleft, isBlank_iff.1 hright, hclosing, rfl⟩

/-- **A line says what a statement says that it writes.** -/
theorem matches_of_writes {s : Statement} (hs : s.phrase? = some x) (hwf : s.WellFormed)
    (hspelled : s.Spelled) (hwrites : s.Writes line) : x.Matches line := by
  cases s with
  | declaration t n v =>
      obtain rfl := Option.some.inj hs
      obtain ⟨-, htype, hn, hfree, hv⟩ := hwf
      obtain ⟨-, hspelled⟩ := List.forall_mem_cons.1 hspelled
      obtain ⟨hname, hspells⟩ := List.forall_mem_cons.1 hspelled
      obtain ⟨gap, left, right, closing, hgap, hne, hleft, hright, hclosing, rfl⟩ := hwrites
      rw [hn, ← isName_iff] at hname
      rw [← isBlank_iff] at hgap hleft hright
      rw [← isClosing_iff] at hclosing
      obtain ⟨hfree, hprint⟩ := isReserved_eq_false_iff.1 hfree
      cases v with
      | none => exact .declaration htype hname hfree hprint hgap hne hclosing
      | some l =>
          have hvalue := isLiteral_iff.2 ⟨l, hv l rfl, hspells, rfl⟩
          have hmatches := Matches.initialized htype hname hfree hprint hvalue hgap hne hleft
            hright hclosing
          simpa only [Statement.initialText, List.append_assoc, Option.map_some] using hmatches
  | assignment n e =>
      obtain ⟨hn, hint, hdouble, hsource⟩ := hwf
      obtain ⟨hname, hspells⟩ := List.forall_mem_cons.1 hspelled
      obtain ⟨left, right, closing, hleft, hright, hclosing, rfl⟩ := hwrites
      rw [hn, ← isName_iff] at hname
      rw [← isBlank_iff] at hleft hright
      rw [← isBlank_iff, ← isClosing_iff] at hclosing
      have hfree : ¬ IsType n.lexeme := not_or.2 ⟨hint, hdouble⟩
      cases hsource with
      | ident t ht =>
          obtain rfl := Option.some.inj hs
          have hsource := hspells t (by simp [Expr.tokens])
          rw [ht, ← isName_iff] at hsource
          exact .copy hname hfree hsource hleft hright hclosing
      | number l hl =>
          obtain rfl := Option.some.inj hs
          exact .literal hname hfree (isLiteral_iff.2 ⟨l, hl, hspells, rfl⟩) hleft hright hclosing
  | print k w b v => cases hs

end Phrase

/-! ## Reading phrases -/

namespace Reading

variable {lenient : Bool} {number : Int} {line : Bytes} {s : Statement} {x : Phrase}

/-- Declarations and assignments are read alike in both modes. -/
theorem outcome_of_lenient (hs : (ofLine lenient number line).outcome = .ok s)
    (hprint : s.kind ≠ .print) : (ofLine false number line).outcome = .ok s := by
  cases lenient with
  | false => exact hs
  | true =>
      rcases ofLine_true_or number line with heq | ⟨hkind, -⟩
      · rwa [← heq]
      · exact absurd ((statement_of_outcome hs).1.trans hkind) hprint

/-- What a line says is read, in either mode. -/
theorem exists_outcome_of_matches (h : x.Matches line) (lenient : Bool) (number : Int) :
    ∃ s, (ofLine lenient number line).outcome = .ok s ∧ s.phrase? = some x := by
  obtain ⟨s, hs, hwf, hspelled, hwrites⟩ := h.exists_statement
  obtain ⟨s', hs', houtline, -, -⟩ := outcome_of_writes number hwf hspelled hwrites
  refine ⟨s', outcome_of_strict hs', ?_⟩
  rw [← s'.phrase?_outline, houtline, s.phrase?_outline, hs]

/-- What is read from a line that starts with no blank is what the line says. -/
theorem matches_of_outcome (hline : ∀ b ∈ line.head?, isSpace b = false)
    (hs : (ofLine lenient number line).outcome = .ok s) (hx : s.phrase? = some x) :
    x.Matches line := by
  have hprint : s.kind ≠ .print := by
    cases s with
    | print => cases hx
    | declaration => simp [Statement.kind]
    | assignment => simp [Statement.kind]
  exact Phrase.matches_of_writes hx (wellFormed_of_outcome hline hs) (spelled_of_outcome hs)
    (writes_of_outcome hline (outcome_of_lenient hs hprint) hprint)

/-- **Lines are read as what they say.**  In either mode, a line that does not start with a blank

* is read as a declaration of a type, a name and the text of a literal or none, or as an assignment
  of the text of a literal or of a name, just if that is what it says;
* is complained about as a declaration or as an assignment, as it was classified, if it says nothing
  of the kind and is no print line. -/
theorem phrase_iff_matches (lenient : Bool) (number : Int) (line : Bytes)
    (hline : ∀ b ∈ line.head?, b ∉ Phrase.blanks) :
    let r := ofLine lenient number line
    (∀ x : Phrase, (∃ s, r.statement? = some s ∧ s.phrase? = some x) ↔ x.Matches line) ∧
    ((∀ x : Phrase, ¬ x.Matches line) → LineKind.ofLine line ≠ .print →
      r.statement? = none ∧ ∃ d, r.diagnostic? number line = some d ∧ d.code.text =
        if LineKind.ofLine line = .declaration then utf8 "S001" else utf8 "S002") := by
  intro r
  have hspace : ∀ b ∈ line.head?, isSpace b = false := by
    intro b hb
    rw [Bool.eq_false_iff, ne_eq, ← Phrase.mem_blanks_iff]
    exact hline b hb
  refine ⟨fun x => ⟨?_, ?_⟩, ?_⟩
  · rintro ⟨s, hs, hx⟩
    exact matches_of_outcome hspace (statement?_eq_some_iff.1 hs) hx
  · intro h
    obtain ⟨s, hs, hx⟩ := exists_outcome_of_matches h lenient number
    exact ⟨s, statement?_eq_some_iff.2 hs, hx⟩
  · intro hnone hprint
    cases h : r.outcome with
    | ok s =>
        have hkind : s.kind ≠ .print := by rwa [(statement_of_outcome h).1]
        obtain ⟨x, hx⟩ := Statement.exists_phrase (wellFormed_of_outcome hspace h) hkind
        exact absurd (matches_of_outcome hspace h hx) (hnone x)
    | error refusal =>
        refine ⟨by rw [statement?, h]; rfl, ?_⟩
        rw [diagnostic?, h, kind_ofLine]
        cases refusal with
        | form => exact absurd (kind_of_form h) hprint
        | grammar f =>
            cases hkind : LineKind.ofLine line with
            | declaration => exact ⟨_, rfl, rfl⟩
            | assignment => exact ⟨_, rfl, rfl⟩
            | print => exact absurd hkind hprint

/-- A sign that touches its number is part of a literal, and one that does not is none. -/
theorem phrase_iff_matches_sign :
    (Phrase.declaration "int" "x" (some "+5.")).Matches (utf8 "int\tx =\r+5. ;\n") ∧
    (∀ x : Phrase, ¬ x.Matches (utf8 "x = + 5")) ∧
      ∃ d, (ofLine true 3 (utf8 "x = + 5")).diagnostic? 3 (utf8 "x = + 5") = some d ∧
        d.code.text = utf8 "S002" := by
  have hfirst : ∀ b ∈ (utf8 "int\tx =\r+5. ;\n").head?, b ∉ Phrase.blanks := by
    rintro b ⟨⟩
    decide
  have hsecond : ∀ b ∈ (utf8 "x = + 5").head?, b ∉ Phrase.blanks := by
    rintro b ⟨⟩
    decide
  obtain ⟨hreads, -⟩ := phrase_iff_matches false 1 _ hfirst
  obtain ⟨hdetached, hcomplains⟩ := phrase_iff_matches true 3 _ hsecond
  have hread : (ofLine false 1 (utf8 "int\tx =\r+5. ;\n")).statement? =
      some (.declaration ⟨.ident, "int", 1, 1⟩ ⟨.ident, "x", 1, 5⟩
        (some ⟨some ⟨.plus, "+", 1, 9⟩, ⟨.number, "5.", 1, 10⟩⟩)) := by
    decide +kernel
  have hnone : (ofLine true 3 (utf8 "x = + 5")).statement? = none := by decide +kernel
  have hnothing : ∀ x : Phrase, ¬ x.Matches (utf8 "x = + 5") := by
    intro x hx
    obtain ⟨s, hs, -⟩ := (hdetached x).2 hx
    rw [hnone] at hs
    cases hs
  have hkind : LineKind.ofLine (utf8 "x = + 5") = .assignment := by decide
  obtain ⟨-, d, hd, hcode⟩ := hcomplains hnothing (by rw [hkind]; decide)
  rw [hkind] at hcode
  exact ⟨(hreads _).1 ⟨_, hread, by decide⟩, hnothing, d, hd, hcode⟩

end Reading

end LineCalc
