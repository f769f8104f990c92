import LineCalc.Proofs.Line.Writing
/-!
# Printing and reading back

Whatever is read from a line, its code is read as the same statement.

* `Reading.wellFormed_of_outcome`, `Reading.spelled_of_outcome` : what is read is well-formed, and
  its tokens are spelled;
* `Statement.writes_code` : the code of a statement writes it;
* `Reading.body_of_strict` : a print that was read strictly keeps just the lexemes of its
  expression;
* `Reading.code_reads_back` : the round trip.
-/
namespace LineCalc

/-! ## Code -/

namespace Expr

/-- Without its spaces, the code of a spelled tree is the lexemes of its tokens. -/
theorem squeezes_code {e : Expr} (h : ∀ t ∈ e.tokens, ∀ b ∈ t.lexeme, Text.isSolid b) :
    Text.Squeezes e.code (e.tokens.flatMap Token.lexeme) := by
  induction e with
  | number l =>
      have htext : l.text = (number l).tokens.flatMap Token.lexeme := l.text_eq_flatMap
      rw [← htext]
      refine Text.squeezes_of_isSolid ?_
      intro b hb
      rw [code, htext] at hb
      obtain ⟨t, ht, hb⟩ := List.mem_flatMap.1 hb
      exact h t ht b hb
  | ident t =>
      have := Text.squeezes_of_isSolid (h t (by simp [tokens]))
      simpa [code, tokens] using this
  | unary t e ih =>
      obtain ⟨ht, he⟩ := List.forall_mem_cons.1 h
      exact (Text.squeezes_of_isSolid ht).append (ih he)
  | binary t l r ihl ihr =>
      obtain ⟨hl, htr⟩ := List.forall_mem_append.1 h
      obtain ⟨ht, hr⟩ := List.forall_mem_cons.1 htr
      have hcode := (((ihl hl).append Text.squeezes_space).append
        (Text.squeezes_of_isSolid ht)).append Text.squeezes_space
      simpa [code, tokens] using hcode.append (ihr hr)

end Expr

namespace Statement

/-- The code of a statement writes it. -/
theorem writes_code {s : Statement} (hwf : s.WellFormed) (hspelled : s.Spelled) :
    s.Writes s.code := by
  have hassign : utf8 " = " = utf8 " " ++ (utf8 "=" ++ utf8 " ") := by decide
  cases s with
  | declaration t n v =>
      refine ⟨utf8 " ", utf8 " ", utf8 " ", utf8 ";", isGap_space, by decide, isGap_space,
        isGap_space, isSemicolon_self, ?_⟩
      cases v with
      | none => simp only [code, initialText, List.append_assoc, List.nil_append]
      | some l => simp only [code, initialText, hassign, List.append_assoc]
  | assignment n e =>
      refine ⟨utf8 " ", utf8 " ", utf8 ";", isGap_space, isGap_space, .inr isSemicolon_self, ?_⟩
      simp only [code, hassign, List.append_assoc]
  | print k w b v =>
      obtain ⟨-, -, e, rfl, hshaped, -⟩ := hwf
      have hsqueezes : Text.Squeezes e.code _ := Expr.squeezes_code fun t ht =>
        Layout.isSolid_of_spells (hshaped.ne_illegal t ht) (hspelled t ht)
      refine ⟨e.code, hsqueezes.eq, ?_⟩
      simp only [code, Option.map_some, Option.getD_some, List.append_assoc]

end Statement

/-! ## What is read -/

namespace Layout

/-- A text that starts with no space has no gap in front of its first token. -/
theorem IsLayout.gap_eq_nil {p : Piece} {ps : List Piece} {tail : Bytes}
    (h : IsLayout (p :: ps) tail)
    (hhead : ∀ b ∈ (render (p :: ps) tail).head?, isSpace b = false) : p.gap = [] := by
  cases hgap : p.gap with
  | nil => rfl
  | cons c cs =>
      have hspace := h.1.gap c (by simp [hgap])
      have := hhead c (by simp [render, hgap])
      rw [hspace] at this
      cases this

/-- The kinds of a layout are those of its tokens. -/
theorem map_kind_place (line : Int) (ps : List Piece) :
    ∀ column, (place line column ps).map Token.kind = ps.map Piece.kind := by
  induction ps with
  | nil => exact fun column => rfl
  | cons p ps ih =>
      intro column
      rw [place, List.map_cons, ih, List.map_cons]
      rfl

/-- The lexemes of a layout are its text without the spaces. -/
theorem flatMap_lexeme_place {line : Int} {ps : List Piece} {tail : Bytes} (h : IsLayout ps tail)
    (hlegal : ∀ p ∈ ps, p.kind ≠ .illegal) :
    ∀ column, (place line column ps).flatMap Token.lexeme =
      (render ps tail).filter (!isSpace ·) := by
  have hspaces : ∀ s : Bytes, (∀ b ∈ s, isSpace b) → s.filter (!isSpace ·) = [] := by
    intro s hs
    rw [List.filter_eq_nil_iff]
    intro b hb
    simp [hs b hb]
  induction ps with
  | nil => exact fun column => (hspaces tail h).symm
  | cons p ps ih =>
      intro column
      have hspells := (h.spells p List.mem_cons_self).1
      obtain ⟨hfits, hps⟩ := h
      obtain ⟨hp, hlegal⟩ := List.forall_mem_cons.1 hlegal
      have htext : p.text.filter (!isSpace ·) = p.text := by
        rw [List.filter_eq_self]
        intro b hb
        simp [isSpace_of_isSolid (isSolid_of_spells hp hspells b hb)]
      have hlexeme : (token line column p).lexeme = p.text := spelling_of_ne_illegal hp
      rw [place, List.flatMap_cons, ih hps hlegal, render, List.filter_append, List.filter_append,
        hspaces p.gap hfits.gap, htext, hlexeme, List.nil_append]

end Layout

namespace LineKind

/-- The first word of an assignment is no type. -/
theorem ne_type_of_ofLine {name rest : Bytes} (hname : ∀ b ∈ name, Bytes.isWord b)
    (hrest : ∀ b ∈ rest.head?, Bytes.isWord b = false) (h : ofLine (name ++ rest) = .assignment) :
    name ≠ utf8 "int" ∧ name ≠ utf8 "double" := by
  rw [ofLine, startsWithWord_append (by decide) hname hrest,
    startsWithWord_append (by decide) hname hrest] at h
  split at h
  · cases h
  · next hne =>
      simp only [Bool.or_eq_true, beq_iff_eq, not_or] at hne
      exact ⟨Ne.symm hne.1, Ne.symm hne.2⟩

end LineKind

namespace Reading

/-- The name of an assignment at the start of its line is no type. -/
theorem assignment_name_ne_type {number : Int} {line : Bytes} {name : Token} {rest : List Token}
    (hline : ∀ b ∈ line.head?, isSpace b = false) (hkind : LineKind.ofLine line = .assignment)
    (hname : name.kind = .ident) (hunits : units false number .assignment line [] = name :: rest) :
    name.lexeme ≠ utf8 "int" ∧ name.lexeme ≠ utf8 "double" := by
  obtain ⟨ps, tail, rfl, hlayout⟩ := Layout.exists_isLayout line
  rw [units_of_isLayout hlayout rfl] at hunits
  cases ps with
  | nil => cases hunits
  | cons p ps =>
      obtain ⟨rfl, -⟩ := List.cons.inj hunits
      have hp : p.kind = .ident := hname
      have hlexeme : (Layout.token number 1 p).lexeme = p.text :=
        Layout.spelling_of_ne_illegal (by simp [hp])
      have hgap := hlayout.gap_eq_nil hline
      have hspells := (hlayout.spells p List.mem_cons_self).1
      rw [Layout.render, hgap, List.nil_append] at hkind
      rw [hp] at hspells
      obtain ⟨b, r, htext, hb, hr⟩ := hspells
      rw [hlexeme]
      refine LineKind.ne_type_of_ofLine ?_ (hlayout.1.breaks_of_ident hp) hkind
      rw [htext]
      exact List.forall_mem_cons.2 ⟨by simp [Bytes.isWord, hb], hr⟩

/-- What is read from a line that starts with no space is well-formed. -/
theorem wellFormed_of_outcome {lenient : Bool} {number : Int} {line : Bytes} {s : Statement}
    (hline : ∀ b ∈ line.head?, isSpace b = false)
    (hs : (ofLine lenient number line).outcome = .ok s) : s.WellFormed := by
  rw [outcome_eq_ok_iff] at hs
  cases hkind : LineKind.ofLine line with
  | declaration =>
      rw [hkind] at hs
      obtain ⟨t, n, v, rfl, ht, hword, hn, hfree, init, closing, hinit, -, -⟩ := hs
      refine ⟨ht, hword, hn, hfree, ?_⟩
      rintro l rfl
      obtain ⟨-, -, -, hl⟩ := hinit
      exact hl
  | assignment =>
      rw [hkind] at hs
      obtain ⟨n, e, rfl, hn, hsource, assign, closing, -, -, hunits⟩ := hs
      obtain ⟨hint, hdouble⟩ := assignment_name_ne_type hline hkind hn hunits
      exact ⟨hn, hint, hdouble, hsource⟩
  | print =>
      rw [hkind] at hs
      obtain ⟨body, e, -, rfl, -, hshaped, hnest⟩ := hs
      exact ⟨rfl, rfl, e, rfl, hshaped, hnest⟩

/-- The tokens of what is read are spelled. -/
theorem spelled_of_outcome {lenient : Bool} {number : Int} {line : Bytes} {s : Statement}
    (hs : (ofLine lenient number line).outcome = .ok s) : s.Spelled := by
  rw [outcome_eq_ok_iff] at hs
  cases hkind : LineKind.ofLine line with
  | declaration =>
      rw [hkind] at hs
      obtain ⟨t, n, v, rfl, ht, hword, hn, hfree, init, closing, hinit, -, hunits⟩ := hs
      obtain ⟨-, hspells⟩ := exists_scan_eq lenient number .declaration line []
      rw [hunits] at hspells
      have htype := hspells t (by simp) (by simp [ht])
      have hname := hspells n (by simp) (by simp [hn])
      refine List.forall_mem_cons.2 ⟨htype, List.forall_mem_cons.2 ⟨hname, ?_⟩⟩
      cases v with
      | none => simp
      | some l =>
          obtain ⟨assign, -, rfl, hl⟩ := hinit
          intro u hu
          exact hspells u (by simp_all) (hl.ne_illegal u hu)
  | assignment =>
      rw [hkind] at hs
      obtain ⟨n, e, rfl, hn, hsource, assign, closing, -, -, hunits⟩ := hs
      obtain ⟨-, hspells⟩ := exists_scan_eq lenient number .assignment line []
      rw [hunits] at hspells
      refine List.forall_mem_cons.2 ⟨hspells n (by simp) (by simp [hn]), ?_⟩
      intro u hu
      refine hspells u (by simp [hu]) ?_
      cases hsource with
      | ident t ht =>
          rw [List.mem_singleton.1 hu, ht]
          simp
      | number l hl => exact hl.ne_illegal u hu
  | print =>
      rw [hkind] at hs
      obtain ⟨body, e, -, rfl, htokens, hshaped, hnest⟩ := hs
      obtain ⟨-, hspells⟩ := exists_scan_eq lenient number .print line body
      rw [← htokens] at hspells
      exact fun u hu => hspells u hu (hshaped.ne_illegal u hu)

/-- A print that was read strictly keeps just the lexemes of its expression. -/
theorem body_of_strict {number : Int} {line : Bytes} {s : Statement}
    (hs : (ofLine false number line).outcome = .ok s) : s.body = s.squeezed := by
  rw [outcome_eq_ok_iff] at hs
  cases hkind : LineKind.ofLine line with
  | declaration =>
      rw [hkind] at hs
      obtain ⟨t, n, v, rfl, -⟩ := hs
      rfl
  | assignment =>
      rw [hkind] at hs
      obtain ⟨n, e, rfl, -⟩ := hs
      rfl
  | print =>
      rw [hkind] at hs
      obtain ⟨body, e, hbody, rfl, htokens, hshaped, -⟩ := hs
      obtain ⟨inner, -, hinner⟩ := LineKind.printBody?_eq_some_iff.1 hbody
      obtain ⟨ps, tail, hrender, hlayout⟩ := Layout.exists_isLayout body
      have hunits : units false number .print line body = _ :=
        units_of_isLayout hlayout hrender.symm
      rw [hunits] at htokens
      have hlegal : ∀ p ∈ ps, p.kind ≠ .illegal := by
        intro p hp hillegal
        have hmem : p.kind ∈ e.tokens.map Token.kind := by
          rw [htokens, Layout.map_kind_place]
          exact List.mem_map_of_mem hp
        obtain ⟨t, ht, hk⟩ := List.mem_map.1 hmem
        exact hshaped.ne_illegal t ht (hk.trans hillegal)
      -- a strict line keeps every token, and its body was squeezed before it was scanned
      have hspace : ∀ b ∈ body, isSpace b = false := by
        intro b hb
        rw [← hinner] at hb
        have := Text.isAsciiBlank_of_mem_squeeze inner b hb
        grind [Text.isAsciiBlank, isSpace]
      show body = e.tokens.flatMap Token.lexeme
      rw [htokens, Layout.flatMap_lexeme_place hlayout hlegal, hrender, eq_comm,
        List.filter_eq_self]
      intro b hb
      simp [hspace b hb]

/-! ## The round trip -/

/-- **The code of what is read is read back.**  If a line that starts with no space is read, the
code of its statement is read strictly as a statement that is the same but for its places and the
texts that a print keeps, and that has the same code.  If the line was read strictly, the two also
keep the same expression text and have the same tree. -/
theorem code_reads_back (lenient : Bool) (number number' : Int) (line : Bytes) (s : Statement)
    (hline : ∀ b ∈ line.head?, isSpace b = false)
    (hs : (ofLine lenient number line).outcome = .ok s) :
    ∃ s', (ofLine false number' s.code).outcome = .ok s' ∧ s'.outline = s.outline ∧
      s'.code = s.code ∧ (lenient = false → s'.body = s.body ∧ s'.tree = s.tree) := by
  have hwf := wellFormed_of_outcome hline hs
  have hspelled := spelled_of_outcome hs
  obtain ⟨s', hs', houtline, hbody, -⟩ :=
    outcome_of_writes number' hwf hspelled (Statement.writes_code hwf hspelled)
  refine ⟨s', hs', houtline, Statement.code_eq_of_outline houtline, ?_⟩
  rintro rfl
  have hsame : s'.body = s.body := by rw [hbody, body_of_strict hs]
  exact ⟨hsame, Statement.tree_eq_of_outline houtline hsame⟩

/-- A print of `1-2*-x` with other spaces is read back from its code. -/
theorem code_reads_back_print :
    ∃ s s', (ofLine false 1 "print( 1-2 *- x);").outcome = .ok s ∧
      s.code = utf8 "print(1 - 2 * -x);" ∧
      (ofLine false 7 s.code).outcome = .ok s' ∧ s'.outline = s.outline ∧ s'.code = s.code ∧
      s'.body = s.body ∧ s'.tree = s.tree := by
  have hread : (ofLine false 1 "print( 1-2 *- x);").outcome =
      .ok (.print ⟨.ident, "print", 1, 1⟩ "print( 1-2 *- x);" "1-2*-x" (some
        (.binary ⟨.minus, "-", 1, 2⟩ (.number ⟨none, ⟨.number, "1", 1, 1⟩⟩)
          (.binary ⟨.times, "*", 1, 4⟩ (.number ⟨none, ⟨.number, "2", 1, 3⟩⟩)
            (.unary ⟨.minus, "-", 1, 5⟩ (.ident ⟨.ident, "x", 1, 6⟩)))))) := by
    decide +kernel
  have hline : ∀ b ∈ (utf8 "print( 1-2 *- x);").head?, isSpace b = false := by
    rintro b ⟨⟩
    decide
  obtain ⟨s', hs', houtline, hcode, hstrict⟩ := code_reads_back false 1 7 _ _ hline hread
  exact ⟨_, s', hread, by decide, hs', houtline, hcode, hstrict rfl⟩

end Reading

end LineCalc
