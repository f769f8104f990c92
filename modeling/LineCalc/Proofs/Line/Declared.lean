import LineCalc.Proofs.Expr.Signed
import LineCalc.Proofs.Line.Print
/-!
# Declared and printed literals

A literal can be stored by a declaration and then printed by its name, or printed as it is.  The
lines complain about the same literals and show the same text, but for the least integer, which
can only be declared.

* `Statement.Gives` : a statement gives a variable the value of a literal;
* `Step.holds_of_gives`, `Step.reports_of_gives` : what a line with such a statement does;
* `Step.print_shows_of_read?`, `Step.print_reports_of_eval` : what a print of it does.
-/
namespace LineCalc

/-! ## The lines -/

/-- The line that declares a variable with a literal. -/
def LineKind.declarationLine (k : Kind) (name literal : Bytes) : Bytes :=
  k.text ++ (utf8 " " ++ (name ++ (utf8 " = " ++ (literal ++ utf8 ";"))))

section Texts

variable {sign digits : Bytes}

/-- A number with its sign is a literal of the grammar. -/
theorem Literal.isSigned_ofTexts (hs : IsSign sign) : (ofTexts sign digits).IsSigned := by
  refine ⟨rfl, ?_⟩
  intro s hsign
  unfold ofTexts at hsign
  split at hsign
  · cases hsign
  · obtain rfl := Option.some.inj hsign
    refine ⟨?_, rfl⟩
    rcases hs with rfl | rfl | rfl
    · exact .inl rfl
    · exact .inl rfl
    · exact .inr rfl

/-- Its text is that of the sign and the number. -/
theorem Literal.text_ofTexts : (ofTexts sign digits).text = sign ++ digits := by
  unfold ofTexts text
  split
  · next h =>
      split at h
      · cases h
      · obtain rfl := Option.some.inj h
        rfl
  · next h =>
      split at h
      · next hempty =>
          rw [hempty]
          rfl
      · cases h

/-- Its tokens are spelled. -/
theorem Literal.spells_ofTexts (hs : IsSign sign) (hd : Layout.Spells .number digits) :
    ∀ u ∈ (ofTexts sign digits).tokens, Layout.Spells u.kind u.lexeme := by
  have hsign : sign ≠ [] → Layout.Spells (signToken sign).kind sign := by
    rcases hs with rfl | rfl | rfl
    · exact fun h => absurd rfl h
    · exact fun _ => ⟨0x2b, by decide⟩
    · exact fun _ => ⟨0x2d, by decide⟩
  intro u hu
  unfold ofTexts tokens at hu
  rcases List.mem_append.1 hu with hu | hu
  · split at hu
    · cases hu
    · next hne =>
        rw [List.mem_singleton.1 hu]
        exact hsign hne
  · rw [List.mem_singleton.1 hu]
    exact hd

/-- As an expression it is written with the same text. -/
theorem Expr.isWrittenAs_ofTexts (hs : IsSign sign) (hd : Layout.Spells .number digits) :
    (ofTexts sign digits).IsWrittenAs (sign ++ digits) := by
  have htokens : (ofTexts sign digits).tokens = (Literal.ofTexts sign digits).tokens := by
    unfold ofTexts Literal.ofTexts Literal.tokens
    split
    · rfl
    · rfl
  have hshape : (ofTexts sign digits).Shaped ∧ (ofTexts sign digits).nest ≤ nestingLimit := by
    unfold ofTexts
    split
    · exact ⟨⟨rfl, rfl⟩, by simp [nest, nestingLimit]⟩
    · refine ⟨⟨?_, rfl, rfl, rfl⟩, by simp [nest, nestingLimit]⟩
      rcases hs with rfl | rfl | rfl
      · exact .inl rfl
      · exact .inl rfl
      · exact .inr rfl
  refine ⟨hshape.1, hshape.2, ?_, ?_⟩
  · rw [htokens]
    exact Literal.spells_ofTexts hs hd
  · rw [htokens, ← Literal.text_ofTexts]
    unfold Literal.tokens Literal.text
    split
    · next h => simp [h]
    · next h => simp [h]

end Texts

namespace Reading

/-- A declaration of a literal is read as one, in either mode. -/
theorem exists_declaration {k : Kind} {name sign digits : Bytes}
    (hname : Layout.Spells .ident name) (hfree : isReserved name = false) (hs : IsSign sign)
    (hd : Layout.Spells .number digits) (lenient : Bool) (number : Int) :
    ∃ type target literal, (ofLine lenient number
        (LineKind.declarationLine k name (sign ++ digits))).outcome =
          .ok (.declaration type target (some literal)) ∧
      Kind.ofText? type.lexeme = some k ∧ target.lexeme = name ∧
      literal.text = sign ++ digits := by
  have hword : k.text = utf8 "int" ∨ k.text = utf8 "double" := by
    cases k with
    | int => exact .inl rfl
    | double => exact .inr rfl
  let st := Statement.declaration ⟨.ident, k.text, 0, 0⟩ ⟨.ident, name, 0, 0⟩
    (some (Literal.ofTexts sign digits))
  have hwf : st.WellFormed := by
    refine ⟨rfl, hword, rfl, hfree, ?_⟩
    rintro l ⟨⟩
    exact Literal.isSigned_ofTexts hs
  have hspelled : st.Spelled :=
    List.forall_mem_cons.2 ⟨Layout.spells_type hword,
      List.forall_mem_cons.2 ⟨hname, Literal.spells_ofTexts hs hd⟩⟩
  have hwrites : st.Writes (LineKind.declarationLine k name (sign ++ digits)) := by
    have hgap := Statement.isGap_space
    refine ⟨utf8 " ", utf8 " ", utf8 " ", utf8 ";", hgap, by decide, hgap, hgap,
      Statement.isSemicolon_self, ?_⟩
    have hequals : utf8 " = " = utf8 " " ++ (utf8 "=" ++ utf8 " ") := by decide
    simp [LineKind.declarationLine, Statement.initialText, Literal.text_ofTexts, hequals]
  obtain ⟨s, hs, houtline, -, -⟩ := outcome_of_declaration number hwf hspelled hwrites
  cases s with
  | assignment => cases houtline
  | print => cases houtline
  | declaration type target value =>
      obtain ⟨htype, htarget, hvalue⟩ := Statement.declaration.inj houtline
      obtain ⟨literal, rfl, hliteral⟩ := Option.map_eq_some_iff.1 hvalue
      refine ⟨type, target, literal, outcome_of_strict hs, ?_, (Token.unplaced_inj.1 htarget).2,
        ?_⟩
      · rw [(Token.unplaced_inj.1 htype).2]
        cases k <;> decide
      · rw [← literal.text_unplaced, hliteral, Literal.text_unplaced, Literal.text_ofTexts]

end Reading

/-! ## Giving a variable the value of a literal -/

namespace Statement

variable {t : Table} {k : Kind} {name : Bytes} {l : Literal} {s : Statement}

/-- The statement gives a name the value that a literal writes at the kind. -/
inductive Gives (t : Table) (k : Kind) (name : Bytes) (l : Literal) : Statement → Prop
  | declaration {type target : Token} (hkind : Kind.ofText? type.lexeme = some k)
      (hname : target.lexeme = name) : Gives t k name l (.declaration type target (some l))
  | assignment {target : Token} {v : Value} (hname : target.lexeme = name)
      (hfind : t.find? name = some v) (hkind : v.kind = k) :
      Gives t k name l (.assignment target (.number l))

/-- A literal that writes no value is complained about. -/
theorem Gives.exec_of_none (h : Gives t k name l s) (hread : Value.read? k l.text = none) :
    s.exec t = .error ⟨.literal, l.token, [k.text, l.text]⟩ := by
  cases h with
  | declaration hkind hname =>
      simp only [exec, execDeclaration, declaredValue, hkind, literalValue, hread]
      rfl
  | assignment hname hfind hkind =>
      subst hname hkind
      simp only [exec, execAssignment, hfind, assignedValue, literalValue, hread]
      rfl

/-- The value of a literal is found under the name, if that is new or has the kind. -/
theorem Gives.exec_of_some (h : Gives t k name l s)
    (hroom : ∀ w, t.find? name = some w → w.kind = k) {v : Value}
    (hread : Value.read? k l.text = some v) :
    ∃ t', s.exec t = .ok (t', []) ∧ t'.find? name = some v := by
  have hv : v.kind = k := Value.kind_of_read? hread
  cases h with
  | @declaration type target hkind hname =>
      subst hname
      have hkept : ∀ y, t.symbol? target.lexeme = some y → y.value.kind = v.kind := by
        intro y hy
        rw [hv]
        exact hroom _ (Option.map_eq_some_iff.2 ⟨y, hy, rfl⟩)
      obtain ⟨t', hdeclare, hsymbols⟩ := Table.declare_of_kind type.line hkept
      refine ⟨t', ?_, ?_⟩
      · simp only [exec, execDeclaration, declaredValue, hkind, literalValue, hread, bind,
          Except.bind, hdeclare]
        rfl
      · rw [Table.find?, hsymbols, if_pos rfl]
        rfl
  | @assignment target w hname hfind hkind =>
      subst hname hkind
      obtain ⟨y, hy, rfl⟩ := Option.map_eq_some_iff.1 hfind
      obtain ⟨t', hupdate, hsymbols⟩ := Table.update_of_kind hy hv.symm
      refine ⟨t', ?_, ?_⟩
      · simp only [exec, execAssignment, hfind, assignedValue, literalValue, hread, bind,
          Except.bind, hupdate]
        rfl
      · rw [Table.find?, hsymbols, if_pos rfl]
        rfl

end Statement

namespace Step

variable {lenient : Bool} {t : Table} {number : Int} {line : Bytes} {k : Kind}
  {name sign digits : Bytes} {l : Literal} {s : Statement} {v : Value}

/-- A line that gives a literal without a value is complained about. -/
theorem reports_of_gives (hs : (Reading.ofLine lenient number line).outcome = .ok s)
    (hgives : s.Gives t k name l) (hread : Value.read? k l.text = none) :
    (ofLine lenient t number line).Reports .literal := by
  rw [ofLine_of_outcome hs, execute, hgives.exec_of_none hread]
  exact ⟨_, rfl, code_place number _⟩

/-- After a line that gives a literal with a value, that is found under the name. -/
theorem holds_of_gives (hs : (Reading.ofLine lenient number line).outcome = .ok s)
    (hgives : s.Gives t k name l) (hroom : ∀ w, t.find? name = some w → w.kind = k)
    (hread : Value.read? k l.text = some v) :
    (ofLine lenient t number line).diagnostic? = none ∧
      (ofLine lenient t number line).table.find? name = some v := by
  obtain ⟨t', hexec, hfind⟩ := hgives.exec_of_some hroom hread
  rw [ofLine_of_outcome hs, execute, hexec]
  exact ⟨rfl, hfind⟩

/-! ## What a declaration does -/

/-- A declaration with a literal that is no value is complained about. -/
theorem reports_of_read?_eq_none (hname : Layout.Spells .ident name)
    (hfree : isReserved name = false) (hs : IsSign sign) (hd : Layout.Spells .number digits)
    (h : Value.read? k (sign ++ digits) = none) :
    (ofLine lenient t number (LineKind.declarationLine k name (sign ++ digits))).Reports
      .literal := by
  obtain ⟨type, target, literal, hread, hkind, htarget, hliteral⟩ :=
    Reading.exists_declaration (k := k) hname hfree hs hd lenient number
  exact reports_of_gives hread (.declaration hkind htarget) (by rwa [hliteral])

/-- A literal that is a value is stored under a new name. -/
theorem declares_of_read? (hname : Layout.Spells .ident name) (hfree : isReserved name = false)
    (hnew : t.find? name = none) (hs : IsSign sign) (hd : Layout.Spells .number digits)
    (h : Value.read? k (sign ++ digits) = some v) :
    (ofLine lenient t number (LineKind.declarationLine k name (sign ++ digits))).diagnostic? =
        none ∧
      (ofLine lenient t number (LineKind.declarationLine k name (sign ++ digits))).table.find?
        name = some v := by
  obtain ⟨type, target, literal, hread, hkind, htarget, hliteral⟩ :=
    Reading.exists_declaration (k := k) hname hfree hs hd lenient number
  exact holds_of_gives hread (.declaration hkind htarget) (by simp [hnew]) (by rwa [hliteral])

/-! ## What a print does -/

/-- A print of a literal without a value complains about it. -/
theorem print_reports_of_eval (hs : IsSign sign) (hd : Layout.Spells .number digits)
    (h : ∃ d, (Expr.ofTexts sign digits).eval t = .error d ∧ d.code = .literal) :
    (ofLine lenient t number (LineKind.printLine (sign ++ digits))).Reports .literal := by
  obtain ⟨d, heval, hcode⟩ := h
  rw [← hcode]
  exact reports_of_isWrittenAs (Expr.isWrittenAs_ofTexts hs hd) heval

/-- A print of a literal shows what a variable with its value does, unless it is the least
integer. -/
theorem print_shows_of_read? (hs : IsSign sign) (hd : Layout.Spells .number digits)
    (h : Value.read? (numberKind digits) (sign ++ digits) = some v)
    (hleast : ¬ IsLeastInteger sign digits) {text : Bytes}
    (htext : v.toResult.toText? = some text) :
    (ofLine lenient t number (LineKind.printLine (sign ++ digits))).Shows t
      (LineKind.printLine (sign ++ digits)) text := by
  obtain ⟨r, heval, hr⟩ := Expr.exists_eval_of_read? (t := t) hs hd h hleast
  exact shows_of_isWrittenAs (Expr.isWrittenAs_ofTexts hs hd) heval (hr.trans htext)

/-! ## Both together -/

/-- **Printing a literal and printing what was declared with it are the same.**  For a number with
at most one sign, and a name that can be declared and that the table does not have:

* the declaration of the name with the literal succeeds, or it complains about the literal, and then
  so does a print of the literal;
* if it succeeds, the print of the literal and that of the name afterwards show the same text;
* this does not hold for the least integer: it can be declared, and a print of the literal complains
  about it. -/
theorem declared_literal_prints_alike (lenient : Bool) (t : Table) (number : Int)
    (name sign digits : Bytes) (hname : IsLexeme .ident name) (hfree : isReserved name = false)
    (hnew : t.find? name = none) (hsign : IsSign sign) (hdigits : IsLexeme .number digits) :
    let literal := sign ++ digits
    let declared :=
      ofLine lenient t number (LineKind.declarationLine (numberKind digits) name literal)
    (declared.diagnostic? = none ∨ declared.Reports .literal) ∧
    (declared.Reports .literal → ∀ lenient' t' number',
      (ofLine lenient' t' number' (LineKind.printLine literal)).Reports .literal) ∧
    (declared.diagnostic? = none → ¬ IsLeastInteger sign digits → ∃ text,
      (∀ lenient' t' number', (ofLine lenient' t' number' (LineKind.printLine literal)).Shows t'
        (LineKind.printLine literal) text) ∧
      ∀ lenient' number', (ofLine lenient' declared.table number' (LineKind.printLine name)).Shows
        declared.table (LineKind.printLine name) text) ∧
    (IsLeastInteger sign digits → declared.diagnostic? = none ∧ ∀ lenient' t' number',
      (ofLine lenient' t' number' (LineKind.printLine literal)).Reports .literal) := by
  intro literal declared
  have hd := hdigits.spells (by simp) (by simp)
  have hn := hname.spells (by simp) (by simp)
  have hexclusive : declared.diagnostic? = none → ¬ declared.Reports .literal := by
    rintro hnone ⟨d, hsome, -⟩
    rw [hnone] at hsome
    cases hsome
  cases hread : Value.read? (numberKind digits) literal with
  | none =>
      have hreports : declared.Reports .literal :=
        reports_of_read?_eq_none hn hfree hsign hd hread
      refine ⟨.inr hreports, ?_, fun hnone => absurd hreports (hexclusive hnone), ?_⟩
      · intro _ lenient' t' number'
        exact print_reports_of_eval hsign hd (Expr.exists_eval_error_of_read? hsign hd hread)
      · intro hleast
        obtain ⟨⟨v, hv⟩, -⟩ := Expr.eval_of_isLeast (t := t) hsign hd hleast
        exact absurd (hv.symm.trans hread) (by simp)
  | some v =>
      obtain ⟨hnone, hfind⟩ : declared.diagnostic? = none ∧ declared.table.find? name = some v :=
        declares_of_read? hn hfree hnew hsign hd hread
      refine ⟨.inl hnone, fun hreports => absurd hreports (hexclusive hnone), ?_, ?_⟩
      · intro _ hleast
        obtain ⟨text, htext⟩ := v.exists_toText?
        exact ⟨text, fun _ _ _ => print_shows_of_read? hsign hd hread hleast htext,
          fun _ _ => shows_name hn hfind htext⟩
      · intro hleast
        exact ⟨hnone, fun _ _ _ =>
          print_reports_of_eval hsign hd (Expr.eval_of_isLeast hsign hd hleast).2⟩

/-- A negative number with zeros in front, and the least integer. -/
theorem declared_literal_prints_alike_negative :
    let declared := ofLine false .empty 1 (utf8 "int v = -007;")
    (∃ text, (ofLine true .empty 2 (utf8 "print(-007);")).Shows .empty (utf8 "print(-007);") text ∧
      (ofLine false declared.table 2 (utf8 "print(v);")).Shows declared.table (utf8 "print(v);")
        text) ∧
    (ofLine false .empty 1 (utf8 "int v = -9223372036854775808;")).diagnostic? = none ∧
    (ofLine false .empty 2 (utf8 "print(-9223372036854775808);")).Reports .literal := by
  intro declared
  have hname : IsLexeme .ident (utf8 "v") := ⟨1, utf8 "v", ⟨.ident, "v", 1, 1⟩, by decide +kernel⟩
  have hseven : IsLexeme .number (utf8 "007") :=
    ⟨1, utf8 "007", ⟨.number, "007", 1, 1⟩, by decide +kernel⟩
  have hleast : IsLexeme .number (utf8 "9223372036854775808") :=
    ⟨1, utf8 "9223372036854775808", ⟨.number, "9223372036854775808", 1, 1⟩, by decide +kernel⟩
  obtain ⟨-, -, hshows, -⟩ := declared_literal_prints_alike false .empty 1 _ (utf8 "-") _ hname
    (by decide) rfl (.inr (.inr rfl)) hseven
  obtain ⟨-, -, -, hreports⟩ := declared_literal_prints_alike false .empty 1 _ (utf8 "-") _ hname
    (by decide) rfl (.inr (.inr rfl)) hleast
  obtain ⟨text, hliteral, hvariable⟩ := hshows (by decide +kernel) (by decide +kernel)
  obtain ⟨hnone, hfails⟩ := hreports (by decide +kernel)
  exact ⟨⟨text, hliteral true .empty 2, hvariable false 2⟩, hnone, hfails false .empty 2⟩

end Step

end LineCalc
