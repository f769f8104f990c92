import LineCalc.Proofs.Line.RoundTrip
/-!
# What a line that is read looks like

Reading goes from a line to its tokens.  Here the tokens tell the line back: each stands behind a
gap, and the columns tell how long the gap is.

* `Layout.Cuts` : a text from a column on, and the tokens in it;
* `Reading.writes_of_outcome` : a line writes the declaration or the assignment that it is read as.
-/
namespace LineCalc

/-! ## Texts that are cut -/

namespace Layout

/-- The text that starts at the column is cut into the tokens. -/
def Cuts (line : Int) (column : Nat) (s : Bytes) (ts : List Token) : Prop :=
  ∃ ps tail, render ps tail = s ∧ IsLayout ps tail ∧ place line column ps = ts

variable {line : Int} {column : Nat} {s : Bytes} {t : Token} {ts : List Token}

/-- A text without tokens is a gap. -/
theorem Cuts.isGap (h : Cuts line column s []) : Statement.IsGap s := by
  obtain ⟨ps, tail, rfl, hlayout, hplace⟩ := h
  cases ps with
  | nil => exact hlayout
  | cons p ps => cases hplace

/-- The first token stands behind a gap, and a name ends where no more of it follows. -/
theorem Cuts.head (h : Cuts line column s (t :: ts)) (hlegal : t.kind ≠ .illegal) :
    Spells t.kind t.lexeme ∧ ∃ gap rest, Statement.IsGap gap ∧ s = gap ++ (t.lexeme ++ rest) ∧
      t.column = column + gap.length ∧ Cuts line (t.column + t.lexeme.length) rest ts ∧
      (t.kind = .ident → ∀ b ∈ rest.head?, Bytes.isWord b = false) := by
  obtain ⟨ps, tail, rfl, hlayout, hplace⟩ := h
  cases ps with
  | nil => cases hplace
  | cons p ps =>
      obtain ⟨rfl, rfl⟩ := List.cons.inj hplace
      have hlexeme : (token line column p).lexeme = p.text := spelling_of_ne_illegal hlegal
      rw [hlexeme]
      exact ⟨(hlayout.spells p List.mem_cons_self).1, p.gap, render ps tail, hlayout.1.gap, rfl,
        rfl, ⟨ps, tail, rfl, hlayout.2, rfl⟩, hlayout.1.breaks_of_ident⟩

/-- A character of the language stands behind a gap. -/
theorem Cuts.character (h : Cuts line column s (t :: ts)) (hoperand : t.kind.isOperand = false)
    (hlegal : t.kind ≠ .illegal) : ∃ gap rest column', Statement.IsGap gap ∧
      s = gap ++ (t.kind.text ++ rest) ∧ Cuts line column' rest ts := by
  obtain ⟨hspells, gap, rest, hgap, rfl, -, hrest, -⟩ := h.head hlegal
  rw [text_of_spells hoperand hlegal hspells]
  exact ⟨gap, rest, _, hgap, rfl, hrest⟩

/-- A literal stands behind a gap, in one piece. -/
theorem Cuts.literal {l : Literal} (h : Cuts line column s (l.tokens ++ ts)) (hl : l.IsSigned) :
    ∃ gap rest column', Statement.IsGap gap ∧ s = gap ++ (l.text ++ rest) ∧
      Cuts line column' rest ts := by
  have hlegal := hl.ne_illegal
  obtain ⟨sign, n⟩ := l
  cases sign with
  | none =>
      obtain ⟨-, gap, rest, hgap, hs, -, hrest, -⟩ :=
        Cuts.head h (hlegal n (by simp [Literal.tokens]))
      exact ⟨gap, rest, _, hgap, hs, hrest⟩
  | some u =>
      obtain ⟨hkind, hcolumn⟩ := hl.sign u rfl
      obtain ⟨hspells, gap, rest, hgap, rfl, -, hcut, -⟩ :=
        Cuts.head h (hlegal u (by simp [Literal.tokens]))
      obtain ⟨-, between, rest, -, rfl, hnumber, hrest, -⟩ :=
        Cuts.head hcut (hlegal n (by simp [Literal.tokens]))
      -- the columns leave no room between the sign and the number
      have hlength : u.lexeme.length = 1 := by
        have hoperand : u.kind.isOperand = false := by
          rcases hkind with hk | hk <;> rw [hk] <;> rfl
        obtain ⟨b, hb, -⟩ := exists_byte_of_spells hoperand
          (hlegal u (by simp [Literal.tokens])) hspells
        rw [hb]
        rfl
      obtain rfl : between = [] := by
        have hcolumn : n.column = u.column + 1 := hcolumn
        rw [← List.length_eq_zero_iff]
        omega
      refine ⟨gap, rest, _, hgap, ?_, hrest⟩
      simp [Literal.text]

/-- An initial value stands in front of the other tokens. -/
theorem Cuts.initial {v : Option Literal} {init : List Token} (hinit : Statement.Initial v init)
    (h : Cuts line column s (init ++ ts)) : ∃ left right rest column', Statement.IsGap left ∧
      Statement.IsGap right ∧ s = Statement.initialText left right v ++ rest ∧
      Cuts line column' rest ts := by
  cases v with
  | none =>
      obtain rfl : init = [] := hinit
      exact ⟨[], [], s, column, Statement.isGap_nil, Statement.isGap_nil, rfl, h⟩
  | some l =>
      obtain ⟨assign, hassign, rfl, hl⟩ := hinit
      obtain ⟨left, _, _, hleft, rfl, hvalue⟩ :=
        Cuts.character h (by rw [hassign]; rfl) (by simp [hassign])
      obtain ⟨right, rest, column', hright, rfl, hrest⟩ := Cuts.literal hvalue hl
      refine ⟨left, right, rest, column', hleft, hright, ?_, hrest⟩
      rw [hassign]
      simp only [Statement.initialText, List.append_assoc]
      rfl

/-- The right side of an assignment stands in front of the other tokens. -/
theorem Cuts.source {e : Expr} (he : Statement.IsSource e)
    (h : Cuts line column s (e.tokens ++ ts)) : ∃ gap rest column', Statement.IsGap gap ∧
      s = gap ++ (e.code ++ rest) ∧ Cuts line column' rest ts := by
  cases he with
  | ident u hu =>
      obtain ⟨-, gap, rest, hgap, hs, -, hrest, -⟩ := Cuts.head h (by simp [hu])
      exact ⟨gap, rest, _, hgap, hs, hrest⟩
  | number l hl => exact Cuts.literal h hl

/-- A semicolon alone. -/
theorem Cuts.semicolon (h : Cuts line column s [t]) (ht : t.kind = .semicolon) :
    Statement.IsSemicolon s := by
  obtain ⟨gap, rest, _, hgap, rfl, hrest⟩ := h.character (by rw [ht]; rfl) (by simp [ht])
  rw [ht]
  exact ⟨gap, rest, hgap, hrest.isGap, rfl⟩

end Layout

/-! ## What a line that is read looks like -/

namespace Reading

variable {number : Int} {line : Bytes} {s : Statement}

/-- A line is cut into its tokens. -/
theorem cuts_units {kind : LineKind} (hkind : kind ≠ .print) :
    Layout.Cuts number 1 line (units false number kind line []) := by
  obtain ⟨ps, tail, rfl, hlayout⟩ := Layout.exists_isLayout line
  refine ⟨ps, tail, rfl, hlayout, (units_of_isLayout hlayout ?_).symm⟩
  cases kind with
  | print => exact absurd rfl hkind
  | declaration => rfl
  | assignment => rfl

/-- The first token of a line that starts with no space is at its start. -/
theorem cuts_start {t : Token} {ts : List Token} (hline : ∀ b ∈ line.head?, isSpace b = false)
    (h : Layout.Cuts number 1 line (t :: ts)) (ht : t.kind = .ident) :
    ∃ rest column, line = t.lexeme ++ rest ∧ Layout.Cuts number column rest ts ∧
      ∀ b ∈ rest.head?, Bytes.isWord b = false := by
  obtain ⟨-, gap, rest, hgap, rfl, -, hrest, hbreak⟩ := h.head (by simp [ht])
  cases gap with
  | nil => exact ⟨rest, _, rfl, hrest, hbreak ht⟩
  | cons b gap =>
      have hspace := hgap b List.mem_cons_self
      rw [hline b rfl] at hspace
      cases hspace

/-- **A line writes the declaration or the assignment that it is read as.** -/
theorem writes_of_outcome (hline : ∀ b ∈ line.head?, isSpace b = false)
    (hs : (ofLine false number line).outcome = .ok s) (hprint : s.kind ≠ .print) :
    s.Writes line := by
  rw [outcome_eq_ok_iff] at hs
  cases hkind : LineKind.ofLine line with
  | declaration =>
      rw [hkind] at hs
      obtain ⟨t, n, v, rfl, ht, -, hn, -, init, closing, hinit, hclosing, hunits⟩ := hs
      have hcuts : Layout.Cuts number 1 line (units false number .declaration line []) :=
        cuts_units (by simp)
      rw [hunits] at hcuts
      obtain ⟨_, _, rfl, hname, hbreak⟩ := cuts_start hline hcuts ht
      obtain ⟨hspells, gap, _, hgap, rfl, -, hvalue, -⟩ := hname.head (by simp [hn])
      obtain ⟨left, right, rest, _, hleft, hright, rfl, hrest⟩ :=
        Layout.Cuts.initial hinit hvalue
      refine ⟨gap, left, right, rest, hgap, ?_, hleft, hright, hrest.semicolon hclosing, rfl⟩
      -- without a gap the name would go on the type
      rintro rfl
      rw [hn] at hspells
      obtain ⟨b, r, hlexeme, hb, -⟩ := hspells
      have := hbreak b (by rw [hlexeme]; rfl)
      simp [Bytes.isWord, hb] at this
  | assignment =>
      rw [hkind] at hs
      obtain ⟨n, e, rfl, hn, hsource, assign, closing, hassign, hclosing, hunits⟩ := hs
      have hcuts : Layout.Cuts number 1 line (units false number .assignment line []) :=
        cuts_units (by simp)
      rw [hunits] at hcuts
      obtain ⟨_, _, rfl, hequals, -⟩ := cuts_start hline hcuts hn
      obtain ⟨left, _, _, hleft, rfl, hvalue⟩ :=
        hequals.character (by rw [hassign]; rfl) (by simp [hassign])
      obtain ⟨right, rest, _, hright, rfl, hrest⟩ := Layout.Cuts.source hsource hvalue
      rw [hassign]
      refine ⟨left, right, rest, hleft, hright, ?_, rfl⟩
      rcases hclosing with rfl | ⟨t, ht, rfl⟩
      · exact .inl hrest.isGap
      · exact .inr (hrest.semicolon ht)
  | print =>
      rw [hkind] at hs
      obtain ⟨body, e, -, rfl, -⟩ := hs
      exact absurd rfl hprint

end Reading

end LineCalc
