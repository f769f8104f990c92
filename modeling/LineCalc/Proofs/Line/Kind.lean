import LineCalc.Proofs.Line.RoundTrip
/-!
# The kind of a line and its tokens

The kind of a line is told by the bytes that it starts with, and its tokens are cut by the scanner.
Both know the same words: the first two tokens tell the kind, too.

* `LineKind.ofLine_eq_declaration_iff`, `LineKind.ofLine_eq_print_iff` : the kind of a line by its
  first word;
* `Layout.scan_cons` : the first token of a line that starts with no space;
* `Statement.parseDeclaration_eq_expectedType_iff` : a declaration lacks its type just if the first
  token is no type word;
* `LineKind.ofLine_iff_opens` : the kind of a line by its tokens.
-/
namespace LineCalc

/-! ## The first word of a line -/

namespace LineKind

/-- A line starts with a word just if its longest run of word characters is that one. -/
theorem startsWithWord_eq {word : Bytes} (hword : ∀ b ∈ word, Bytes.isWord b) (line : Bytes) :
    startsWithWord word line = (word == line.takeWhile Bytes.isWord) := by
  have hrest : ∀ b ∈ (line.dropWhile Bytes.isWord).head?, Bytes.isWord b = false := by
    intro b hb
    have hhead := List.head?_dropWhile_not Bytes.isWord line
    rwa [Option.mem_def.1 hb] at hhead
  have happend := startsWithWord_append hword
    (fun b hb => List.mem_takeWhile_imp hb : ∀ b ∈ line.takeWhile Bytes.isWord, _) hrest
  rwa [List.takeWhile_append_dropWhile] at happend

/-- A line opens a print just if its first word is `print` and a bracket stands right behind. -/
theorem printOpening_isPrefixOf_iff (line : Bytes) : printOpening.isPrefixOf line ↔
    line.takeWhile Bytes.isWord = utf8 "print" ∧
      (line.dropWhile Bytes.isWord).head? = some 0x28 := by
  have hopening : printOpening = utf8 "print" ++ [0x28] := by decide
  rw [List.isPrefixOf_iff_prefix, hopening]
  constructor
  · rintro ⟨rest, rfl⟩
    have hbreak : ∀ b ∈ (0x28 :: rest).head?, Bytes.isWord b = false := by
      rintro b ⟨⟩
      decide
    obtain ⟨htake, hdrop⟩ :=
      Layout.span_append (by decide : ∀ b ∈ utf8 "print", Bytes.isWord b) hbreak
    rw [List.append_assoc, List.singleton_append, htake, hdrop]
    exact ⟨rfl, rfl⟩
  · rintro ⟨hword, hbracket⟩
    obtain ⟨rest, hrest⟩ := List.head?_eq_some_iff.1 hbracket
    refine ⟨rest, ?_⟩
    rw [← hword, List.append_assoc, List.singleton_append, ← hrest,
      List.takeWhile_append_dropWhile]

/-- A line is a declaration just if its first word is a type. -/
theorem ofLine_eq_declaration_iff (line : Bytes) : ofLine line = declaration ↔
    line.takeWhile Bytes.isWord = utf8 "int" ∨ line.takeWhile Bytes.isWord = utf8 "double" := by
  rw [ofLine, startsWithWord_eq (by decide), startsWithWord_eq (by decide)]
  simp only [Bool.or_eq_true, beq_iff_eq, eq_comm (b := line.takeWhile Bytes.isWord)]
  split_ifs <;> simp_all

/-- A line is a print just if its first word is `print` and a bracket stands right behind. -/
theorem ofLine_eq_print_iff (line : Bytes) : ofLine line = print ↔
    line.takeWhile Bytes.isWord = utf8 "print" ∧
      (line.dropWhile Bytes.isWord).head? = some 0x28 := by
  have hint : utf8 "int" ≠ utf8 "print" := by decide
  have hdouble : utf8 "double" ≠ utf8 "print" := by decide
  rw [← printOpening_isPrefixOf_iff, ofLine, startsWithWord_eq (by decide),
    startsWithWord_eq (by decide)]
  simp only [Bool.or_eq_true, beq_iff_eq]
  split_ifs with htype hprint
  · simp only [false_iff, printOpening_isPrefixOf_iff, not_and]
    intro hword
    rw [hword] at htype
    exact absurd htype (not_or.2 ⟨hint, hdouble⟩)
  · simp [hprint]
  · simp [hprint]

end LineKind

/-! ## The first tokens of a text -/

namespace Layout

/-- The first token of a line that starts with no space, and the cursor behind it. -/
theorem scan_cons (number : Int) {b : UInt8} (r : Bytes) (hb : isSpace b = false) :
    Token.scan number (b :: r) =
      ⟨(Lexeme.first b r).kind, Cursor.spelling (Lexeme.first b r), number, 1⟩ ::
        Cursor.tokens ⟨number, 1 + (Lexeme.first b r).text.length, (Lexeme.first b r).rest⟩ := by
  have hfits : Fits ⟨[], (Lexeme.first b r).kind, (Lexeme.first b r).text⟩
      (Lexeme.first b r).rest :=
    ⟨by simp, b, r, Lexeme.first_append b r, hb, rfl⟩
  have htokens := @tokens_of_fits number 1 _ _ hfits
  rwa [List.nil_append, Lexeme.first_append] at htokens

/-- The tokens from a cursor on start with the next one. -/
theorem exists_tokens_eq_cons (c : Cursor) : ∃ ts, c.tokens = c.next.1 :: ts := by
  rw [Cursor.tokens]
  split
  · exact ⟨[], rfl⟩
  · exact ⟨_, rfl⟩

/-- A lexeme that starts with a letter is the longest run of word characters. -/
theorem first_of_isLetter {b : UInt8} (r : Bytes) (hb : Bytes.isLetter b) :
    Lexeme.first b r =
      ⟨.ident, (b :: r).takeWhile Bytes.isWord, (b :: r).dropWhile Bytes.isWord⟩ := by
  have hword : Bytes.isWord b := by simp [Bytes.isWord, hb]
  rw [Lexeme.first, if_pos hb, List.takeWhile_cons_of_pos hword, List.dropWhile_cons_of_pos hword]

/-- Only a letter starts a name. -/
theorem isLetter_of_first_kind {b : UInt8} {r : Bytes} (h : (Lexeme.first b r).kind = .ident) :
    Bytes.isLetter b := by
  by_contra hletter
  rw [Lexeme.first, if_neg hletter] at h
  split at h
  · next hdigit => simp [(spells_number (r := r) hdigit).1] at h
  · have hoperand := ofByte?_getD_isOperand b
    rw [show (TokenKind.ofByte? b).getD .illegal = .ident from h] at hoperand
    cases hoperand

/-- The first word of a line, if it starts with a letter, is its first token. -/
theorem scan_of_word (number : Int) {word line : Bytes}
    (hletter : word.head?.all Bytes.isLetter) (hne : word ≠ [])
    (hword : line.takeWhile Bytes.isWord = word) :
    Token.scan number line = ⟨.ident, word, number, 1⟩ ::
      Cursor.tokens ⟨number, 1 + word.length, line.dropWhile Bytes.isWord⟩ := by
  subst hword
  cases line with
  | nil => exact absurd rfl hne
  | cons b r =>
      have hb : Bytes.isWord b := by
        by_contra hb
        exact hne (List.takeWhile_cons_of_neg hb)
      rw [List.takeWhile_cons_of_pos hb] at hletter
      rw [scan_cons number r (isSpace_of_isWord hb), first_of_isLetter r hletter,
        spelling_of_ne_illegal (by simp)]

/-- The first token of a line that starts with no space, if it is a name, is its first word. -/
theorem word_of_scan {number : Int} {line : Bytes} {t : Token} {ts : List Token}
    (hline : ∀ b ∈ line.head?, isSpace b = false) (hscan : Token.scan number line = t :: ts)
    (ht : t.kind = .ident) : line.takeWhile Bytes.isWord = t.lexeme := by
  cases line with
  | nil =>
      have hend : Token.scan number [] = [endToken number 1 []] := tokens_of_spaces (by simp)
      rw [hend] at hscan
      obtain ⟨rfl, -⟩ := List.cons.inj hscan
      cases ht
  | cons b r =>
      rw [scan_cons number r (hline b rfl)] at hscan
      obtain ⟨rfl, -⟩ := List.cons.inj hscan
      show _ = Cursor.spelling (Lexeme.first b r)
      rw [first_of_isLetter r (isLetter_of_first_kind ht), spelling_of_ne_illegal (by simp)]

/-- A lexeme is an opening bracket just if it starts with that character. -/
theorem first_kind_eq_lparen_iff (b : UInt8) (r : Bytes) :
    (Lexeme.first b r).kind = .lparen ↔ b = 0x28 := by
  constructor
  · intro hkind
    unfold Lexeme.first at hkind
    split at hkind
    · cases hkind
    · split at hkind
      · next hdigit => simp [(spells_number (r := r) hdigit).1] at hkind
      · cases hbyte : TokenKind.ofByte? b with
        | none => simp [hbyte] at hkind
        | some k =>
            simp only [hbyte, Option.getD_some] at hkind
            subst hkind
            exact (by decide : ∀ p ∈ characters, p.2 = .lparen → p.1 = 0x28) _
              (mem_characters hbyte) rfl
  · rintro rfl
    rfl

/-- The next token is a bracket right at the cursor just if that is the next byte. -/
theorem next_eq_lparen_iff (number : Int) (column : Nat) (s : Bytes) :
    ((Cursor.next ⟨number, column, s⟩).1.kind = .lparen ∧
      (Cursor.next ⟨number, column, s⟩).1.column = column) ↔ s.head? = some 0x28 := by
  cases s with
  | nil => simp [Cursor.next, Cursor.skip]
  | cons b r =>
      cases hb : isSpace b with
      | true =>
          -- a space moves the token on, and is no bracket
          have hne : b ≠ 0x28 := by
            rintro rfl
            cases hb
          have hcolumn : (Cursor.next ⟨number, column, b :: r⟩).1.column =
              column + ((b :: r).takeWhile isSpace).length := by
            unfold Cursor.next
            split <;> rfl
          rw [hcolumn, List.takeWhile_cons_of_pos hb, List.length_cons]
          simp [hne]
      | false =>
          have hskip := @skip_append number column [] b r (List.forall_mem_nil _) hb
          rw [List.nil_append] at hskip
          rw [Cursor.next, hskip]
          simp [first_kind_eq_lparen_iff]

end Layout

/-! ## What the first tokens open -/

namespace LineKind

/-- The first token is a type word. -/
def OpensDeclaration (ts : List Token) : Prop :=
  ∃ t rest, ts = t :: rest ∧ t.kind = .ident ∧
    (t.lexeme = utf8 "int" ∨ t.lexeme = utf8 "double")

/-- The first token is the word `print`, and the second one is a bracket in column 6. -/
def OpensPrint (ts : List Token) : Prop :=
  ∃ t u rest, ts = t :: u :: rest ∧ t.kind = .ident ∧ t.lexeme = utf8 "print" ∧
    u.kind = .lparen ∧ u.column = 6

/-- The first token of a line that starts with no space is a type word just if its first word is
one. -/
theorem opensDeclaration_scan_iff (number : Int) {line : Bytes}
    (hline : ∀ b ∈ line.head?, isSpace b = false) :
    OpensDeclaration (Token.scan number line) ↔
      line.takeWhile Bytes.isWord = utf8 "int" ∨ line.takeWhile Bytes.isWord = utf8 "double" := by
  constructor
  · rintro ⟨t, rest, hscan, hident, htype⟩
    rwa [Layout.word_of_scan hline hscan hident]
  · rintro (hword | hword)
    · exact ⟨_, _, Layout.scan_of_word number (by decide) (by decide) hword, rfl, .inl rfl⟩
    · exact ⟨_, _, Layout.scan_of_word number (by decide) (by decide) hword, rfl, .inr rfl⟩

/-- The first tokens of a line that starts with no space open a print just if its first word is
`print` and a bracket stands right behind. -/
theorem opensPrint_scan_iff (number : Int) {line : Bytes}
    (hline : ∀ b ∈ line.head?, isSpace b = false) :
    OpensPrint (Token.scan number line) ↔
      line.takeWhile Bytes.isWord = utf8 "print" ∧
        (line.dropWhile Bytes.isWord).head? = some 0x28 := by
  have hscan : line.takeWhile Bytes.isWord = utf8 "print" → Token.scan number line = _ :=
    Layout.scan_of_word number (by decide) (by decide)
  obtain ⟨ts, htokens⟩ :=
    Layout.exists_tokens_eq_cons ⟨number, 6, line.dropWhile Bytes.isWord⟩
  have hbracket := Layout.next_eq_lparen_iff number 6 (line.dropWhile Bytes.isWord)
  constructor
  · rintro ⟨t, u, rest, hts, hident, hprint, hlparen, hcolumn⟩
    have hword := (Layout.word_of_scan hline hts hident).trans hprint
    refine ⟨hword, hbracket.1 ?_⟩
    -- what stands behind `print` is scanned from column 6 on
    have hrest := (hscan hword).symm.trans hts
    rw [show 1 + (utf8 "print").length = 6 by decide, htokens] at hrest
    obtain ⟨-, hrest⟩ := List.cons.inj hrest
    obtain ⟨rfl, -⟩ := List.cons.inj hrest
    exact ⟨hlparen, hcolumn⟩
  · rintro ⟨hword, hhead⟩
    obtain ⟨hlparen, hcolumn⟩ := hbracket.2 hhead
    refine ⟨_, _, ts, (hscan hword).trans (congrArg _ htokens), rfl, rfl, hlparen, hcolumn⟩

end LineKind

/-! ## The missing type -/

namespace Failure

/-- What is expected besides a type is described by other words. -/
theorem describeKind_ne_type (k : TokenKind) : ¬ describeKind k <+: utf8 "int or double" := by
  cases k with
  | other s =>
      rintro ⟨rest, h⟩
      rw [describeKind, List.append_assoc, List.append_assoc] at h
      · exact absurd ⟨_, h⟩ (by decide : ¬ utf8 "'" <+: utf8 "int or double")
      all_goals simp
  | _ => decide

/-- Only the failure of a missing type is worded as it is. -/
theorem message_eq_expectedType_iff (f : Failure) :
    f.message = utf8 "expected int or double" ↔ f = .expectedType := by
  refine ⟨fun h => ?_, fun h => by rw [h]; rfl⟩
  cases f with
  | expectedType => rfl
  | expected k found =>
      have hcut : utf8 "expected int or double" = utf8 "expected " ++ utf8 "int or double" := by
        decide
      rw [message, hcut, List.append_assoc, List.append_assoc] at h
      exact absurd ⟨_, List.append_cancel_left h⟩ (describeKind_ne_type k)
  | reserved name =>
      exact absurd ⟨_, h⟩ (by decide : ¬ [0x22] <+: utf8 "expected int or double")
  | detachedSign => exact absurd h (by decide)
  | emptyExpression => exact absurd h (by decide)
  | tooDeep => exact absurd h (by decide)
  | unexpected found =>
      cases found with
      | none => exact absurd h (by decide)
      | some t =>
          rw [message] at h
          split at h
          · exact absurd ⟨_, h⟩
              (by decide : ¬ utf8 "unexpected character " <+: utf8 "expected int or double")
          · exact absurd ⟨_, h⟩ (by decide : ¬ utf8 "unexpected " <+: utf8 "expected int or double")

end Failure

namespace Statement

/-- A missing token is no missing type. -/
theorem expect_ne_expectedType (k : TokenKind) (ts : List Token) :
    expect k ts ≠ .error .expectedType := by
  cases ts with
  | nil => simp [expect]
  | cons t r =>
      rw [expect]
      split <;> simp

/-- A bad literal is no missing type. -/
theorem parseLiteral_ne_expectedType (ts : List Token) :
    parseLiteral ts ≠ .error .expectedType := by
  cases ts with
  | nil => simp [parseLiteral]
  | cons t r =>
      rw [parseLiteral]
      split
      · simp
      · split
        · split
          · next f hf =>
              rintro ⟨⟩
              exact expect_ne_expectedType _ _ hf
          · split <;> simp
        · simp

/-- A bad initial value is no missing type. -/
theorem parseInitial_ne_expectedType (ts : List Token) :
    parseInitial ts ≠ .error .expectedType := by
  cases ts with
  | nil => simp [parseInitial]
  | cons t r =>
      rw [parseInitial]
      split
      · rw [ne_eq, Except.map_eq_error_iff]
        exact parseLiteral_ne_expectedType r
      · simp

/-- Left-over tokens are no missing type. -/
theorem expectEnd_ne_expectedType (ts : List Token) : expectEnd ts ≠ .error .expectedType := by
  cases ts with
  | nil => simp [expectEnd]
  | cons t r => simp [expectEnd]

/-- A declaration lacks its type just if its first token is no type word. -/
theorem parseDeclaration_eq_expectedType_iff (ts : List Token) :
    parseDeclaration ts = .error .expectedType ↔ ¬ LineKind.OpensDeclaration ts := by
  cases ts with
  | nil =>
      refine iff_of_true rfl ?_
      rintro ⟨t, rest, hts, -⟩
      cases hts
  | cons t r =>
      rw [parseDeclaration]
      split
      · next htype =>
          refine iff_of_false ?_ (not_not.2 ⟨t, r, rfl, htype⟩)
          intro h
          -- behind its type, a declaration fails for want of something else
          rcases Except.bind_eq_error_iff.1 h with h | ⟨⟨name, r₁⟩, -, h⟩
          · exact expect_ne_expectedType _ _ h
          simp only at h
          split at h
          · cases h
          rcases Except.bind_eq_error_iff.1 h with h | ⟨⟨value, r₂⟩, -, h⟩
          · exact parseInitial_ne_expectedType _ h
          rcases Except.bind_eq_error_iff.1 h with h | ⟨⟨closing, r₃⟩, -, h⟩
          · exact expect_ne_expectedType _ _ h
          rcases Except.bind_eq_error_iff.1 h with h | ⟨u, -, h⟩
          · exact expectEnd_ne_expectedType _ h
          · cases h
      · next htype =>
          refine iff_of_true rfl ?_
          rintro ⟨u, rest, hts, hu⟩
          cases hts
          exact htype hu

end Statement

/-! ## The kind of a line -/

namespace Reading

/-- A declaration fails as the parser does on its tokens. -/
theorem parseDeclaration_of_failure {lenient : Bool} {number : Int} {line : Bytes} {f : Failure}
    (hkind : LineKind.ofLine line = .declaration)
    (hf : (ofLine lenient number line).failure? = some f) :
    Statement.parseDeclaration ((Token.scan number line).takeWhile (·.kind != .eof)) =
      .error f := by
  rw [ofLine, hkind] at hf
  simp only [failure?, ofKind, Statement.parse, scan] at hf
  cases hparse :
      Statement.parseDeclaration ((Token.scan number line).takeWhile (·.kind != .eof)) with
  | ok s => simp [hparse, Except.mapError] at hf
  | error f' =>
      simp only [hparse, Except.mapError, Option.some.injEq] at hf
      rw [hf]

end Reading

namespace LineKind

/-- The end of a line is no type word. -/
theorem OpensDeclaration.takeWhile {ts : List Token} (h : OpensDeclaration ts) :
    OpensDeclaration (ts.takeWhile (·.kind != .eof)) := by
  obtain ⟨t, rest, rfl, hident, htype⟩ := h
  rw [List.takeWhile_cons_of_pos (by simp [hident])]
  exact ⟨t, _, rfl, hident, htype⟩

/-- **The kind of a line is told by its tokens.**  A line that starts with no space is a
declaration just if its first token is a type word, a print just if its first two tokens are
`print` and a bracket right behind it, and an assignment otherwise.  So a declaration never lacks
its type, and no assignment is to the name of a type. -/
theorem ofLine_iff_opens (number : Int) (line : Bytes)
    (hline : ∀ b ∈ line.head?, isSpace b = false) :
    (ofLine line = .declaration ↔ OpensDeclaration (Token.scan number line)) ∧
    (ofLine line = .print ↔ OpensPrint (Token.scan number line)) ∧
    (ofLine line = .assignment ↔ ¬ OpensDeclaration (Token.scan number line) ∧
      ¬ OpensPrint (Token.scan number line)) ∧
    (∀ lenient f, ofLine line = .declaration →
      (Reading.ofLine lenient number line).failure? = some f →
      f.message ≠ utf8 "expected int or double") ∧
    ∀ lenient name value,
      (Reading.ofLine lenient number line).outcome = .ok (.assignment name value) →
      name.lexeme ≠ utf8 "int" ∧ name.lexeme ≠ utf8 "double" := by
  have hdeclaration : ofLine line = .declaration ↔ OpensDeclaration (Token.scan number line) := by
    rw [ofLine_eq_declaration_iff, opensDeclaration_scan_iff number hline]
  have hprint : ofLine line = .print ↔ OpensPrint (Token.scan number line) := by
    rw [ofLine_eq_print_iff, opensPrint_scan_iff number hline]
  refine ⟨hdeclaration, hprint, ?_, ?_, ?_⟩
  · rw [← hdeclaration, ← hprint]
    cases ofLine line <;> simp
  · intro lenient f hkind hf
    have hparse := Reading.parseDeclaration_of_failure hkind hf
    rw [ne_eq, Failure.message_eq_expectedType_iff]
    rintro rfl
    exact (Statement.parseDeclaration_eq_expectedType_iff _).1 hparse
      (hdeclaration.1 hkind).takeWhile
  · intro lenient name value houtcome
    obtain ⟨-, hint, hdouble, -⟩ := Reading.wellFormed_of_outcome hline houtcome
    exact ⟨hint, hdouble⟩

/-- A bracket right behind `print` makes a print, and one behind a space does not. -/
theorem ofLine_iff_opens_print :
    (∀ line ∈ [utf8 "print(x);", utf8 "print (x);"], ∀ b ∈ line.head?, isSpace b = false) ∧
      OpensPrint (Token.scan 1 "print(x);") ∧ ¬ OpensPrint (Token.scan 1 "print (x);") := by
  have hlines : ∀ line ∈ [utf8 "print(x);", utf8 "print (x);"], ∀ b ∈ line.head?,
      isSpace b = false := by
    refine List.forall_mem_cons.2 ⟨?_, List.forall_mem_singleton.2 ?_⟩
    · rintro b ⟨⟩
      decide
    · rintro b ⟨⟩
      decide
  have hprint : ofLine "print(x);" = .print := by decide
  have hassignment : ofLine "print (x);" = .assignment := by decide
  obtain ⟨-, hopens, -⟩ := ofLine_iff_opens 1 "print(x);" (hlines _ (by simp))
  obtain ⟨-, -, hneither, -⟩ := ofLine_iff_opens 1 "print (x);" (hlines _ (by simp))
  exact ⟨hlines, hopens.1 hprint, (hneither.1 hassignment).2⟩

end LineKind

end LineCalc
