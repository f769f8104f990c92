import LineCalc.Proofs.Token.Layout
/-!
# Spans

A token of a text takes up the bytes of one span of it.  The spans stand one behind the other, each
as long as it can be, and nothing but spaces is left between them.

* `Cursor.exists_next_atByte` : a step of the scanner goes from one offset of the text to a later
  one;
* `Layout.Fits.tiles` : a piece is a token of the text that it is laid out in;
* `Token.scan_tiles` : the tokens of a text tile it, and behind them the scanner stays at its end.
-/
namespace LineCalc

namespace Token

/-! ## The bytes of a token -/

/-- The number of bytes that a token takes up.  An illegal one is a single byte, however many bytes
its character is spelled with. -/
def width (t : Token) : Nat := if t.kind = .illegal then 1 else t.lexeme.length

/-- The offset of the first byte of a token. -/
def start (t : Token) : Nat := t.column - 1

/-- The offset behind the last byte of a token. -/
def stop (t : Token) : Nat := t.start + t.width

/-- The bytes of the text that a token takes up. -/
def span (s : Bytes) (t : Token) : Bytes := (s.drop t.start).take t.width

/-- The token takes up the byte at the offset. -/
def Covers (t : Token) (i : Nat) : Prop := t.start ≤ i ∧ i < t.stop

/-- The byte starts a token of the language. -/
def Begins (b : UInt8) : Prop := Bytes.isWord b ∨ b ∈ utf8 "=+-*/();"

/-- The token stands in the text at its column, and could be neither longer nor of another kind. -/
structure Tiles (s : Bytes) (t : Token) : Prop where
  column_pos : 0 < t.column
  width_pos : 0 < t.width
  stop_le : t.stop ≤ s.length
  /-- A token is spelled as it stands in the text. -/
  legal : t.kind ≠ .illegal → t.lexeme = t.span s
  /-- An illegal byte is spelled as the character of its number. -/
  illegal : t.kind = .illegal →
    ∃ b, t.span s = [b] ∧ t.lexeme = String.utf8EncodeChar (Char.ofNat b.toNat)
  /-- A byte is illegal if it starts no other token. -/
  first : ∀ b ∈ s[t.start]?, isSpace b = false ∧ (t.kind = .illegal ↔ ¬Begins b)
  ident : t.kind = .ident →
    Layout.Spells .ident (t.span s) ∧ ∀ b ∈ s[t.stop]?, Bytes.isWord b = false
  number : t.kind = .number →
    Layout.Spells .number (t.span s) ∧
      ∀ b ∈ s[t.stop]?, Bytes.isDigit b = false ∧ (0x2e ∉ t.span s → b ≠ 0x2e)
  /-- All tokens besides names and numbers are one byte, and the legal ones that of their kind. -/
  single : t.kind ≠ .ident → t.kind ≠ .number →
    ∃ b, t.span s = [b] ∧
      (t.kind ≠ .illegal → t.kind ∈ TokenKind.scanned ∧ t.kind.text = [b])

/-- The lexeme is found in the text, and the column is that of its first byte. -/
def StandsIn (t : Token) (s : Bytes) : Prop :=
  ∃ before after, s = before ++ (t.lexeme ++ after) ∧ t.column = before.length + 1

/-- A legal token is found at its column. -/
theorem Tiles.standsIn {s : Bytes} {t : Token} (h : t.Tiles s) (hk : t.kind ≠ .illegal) :
    t.StandsIn s := by
  have hpos := h.column_pos
  have hle := h.stop_le
  refine ⟨s.take t.start, (s.drop t.start).drop t.width, ?_, ?_⟩
  · rw [h.legal hk, span, List.take_append_drop, List.take_append_drop]
  · simp only [stop, start] at hle ⊢
    rw [List.length_take]
    omega

/-- The characters of the language are those that make a token of one byte. -/
theorem isSome_ofByte?_iff (b : UInt8) :
    (TokenKind.ofByte? b).isSome ↔ b ∈ utf8 "=+-*/();" := by
  constructor
  · intro h
    obtain ⟨k, hk⟩ := Option.isSome_iff_exists.1 h
    exact (by decide : ∀ p ∈ Layout.characters, p.1 ∈ utf8 "=+-*/();") _ (Layout.mem_characters hk)
  · exact (by decide : ∀ b ∈ utf8 "=+-*/();", (TokenKind.ofByte? b).isSome) b

end Token

/-! ## One piece of a layout -/

namespace Lexeme

/-- What is cut off is illegal if its first byte starts no token of the language. -/
theorem first_kind_eq_illegal_iff (b : UInt8) (r : Bytes) :
    (first b r).kind = .illegal ↔ ¬Token.Begins b := by
  unfold Token.Begins first
  rw [← Token.isSome_ofByte?_iff]
  split
  · next hletter => simp [Bytes.isWord, hletter]
  · next hletter =>
      split
      · next hdigit => simp [(Layout.spells_number (r := r) hdigit).1, Bytes.isWord, hdigit]
      · next hdigit =>
          have hillegal := Layout.ofByte?_ne_illegal b
          cases hb : TokenKind.ofByte? b <;> simp_all [Bytes.isWord]

/-- A number is cut off where no digit follows, and no point if it has none. -/
theorem number_breaks (s : Bytes) :
    ∀ b ∈ (number s).rest.head?,
      Bytes.isDigit b = false ∧ (0x2e ∉ (number s).text → b ≠ 0x2e) := by
  intro b hb
  unfold number at hb ⊢
  split at hb
  · next r hdrop =>
      have hhead := List.head?_dropWhile_not Bytes.isDigit r
      rw [Option.mem_def.1 hb] at hhead
      exact ⟨hhead, by simp⟩
  · next hpoint =>
      have hhead := List.head?_dropWhile_not Bytes.isDigit s
      rw [Option.mem_def.1 hb] at hhead
      refine ⟨hhead, fun _ hb' => ?_⟩
      obtain ⟨r', hr'⟩ := List.head?_eq_some_iff.1 hb
      exact hpoint r' (hb' ▸ hr')

end Lexeme

namespace Layout

/-- A number that fits breaks off as it was cut off. -/
theorem Fits.breaks_of_number {p : Piece} {rest : Bytes} (h : Fits p rest) (hk : p.kind = .number) :
    ∀ b ∈ rest.head?, Bytes.isDigit b = false ∧ (0x2e ∉ p.text → b ≠ 0x2e) := by
  obtain ⟨-, b, r, -, -, hfirst⟩ := h
  unfold Lexeme.first at hfirst
  split at hfirst
  · have hkind := congrArg Lexeme.kind hfirst
    rw [hk] at hkind
    cases hkind
  · split at hfirst
    · have := Lexeme.number_breaks (b :: r)
      rwa [hfirst] at this
    · have hkind := congrArg Lexeme.kind hfirst
      have hoperand := ofByte?_getD_isOperand b
      simp only at hkind
      rw [hkind, hk] at hoperand
      cases hoperand

/-- A piece that fits has a text. -/
theorem Fits.text_pos {p : Piece} {rest : Bytes} (h : Fits p rest) : 0 < p.text.length := by
  obtain ⟨-, b, r, htext, -, hfirst⟩ := h
  have hrest := Lexeme.first_rest_length_le b r
  have hlength := congrArg List.length htext
  rw [hfirst] at hrest
  simp only [List.length_append, List.length_cons] at hlength hrest
  omega

/-- The token of a piece is as wide as its text. -/
theorem Fits.width_token {p : Piece} {rest : Bytes} (h : Fits p rest) (line : Int) (column : Nat) :
    (token line column p).width = p.text.length := by
  by_cases hk : p.kind = .illegal
  · obtain ⟨b, htext, -⟩ := (spells_iff_of_not_isOperand rfl).1 (hk ▸ h.spells.1)
    simp [Token.width, token, hk, htext]
  · simp [Token.width, token, hk, spelling_of_ne_illegal hk]

/-- A piece that is neither a name nor a number is one byte, which the kind tells if it is
legal. -/
theorem Fits.single {p : Piece} {rest : Bytes} (h : Fits p rest) (hident : p.kind ≠ .ident)
    (hnumber : p.kind ≠ .number) :
    ∃ b, p.text = [b] ∧ (p.kind ≠ .illegal → p.kind ∈ TokenKind.scanned ∧ p.kind.text = [b]) := by
  have hoperand : p.kind.isOperand = false := by
    rw [Bool.eq_false_iff, Ne, TokenKind.isOperand_iff]
    exact not_or.2 ⟨hident, hnumber⟩
  by_cases hlegal : p.kind = .illegal
  · obtain ⟨b, htext, -⟩ := (spells_iff_of_not_isOperand hoperand).1 h.spells.1
    exact ⟨b, htext, fun hk => absurd hlegal hk⟩
  · obtain ⟨b, htext, hb⟩ := exists_byte_of_spells hoperand hlegal h.spells.1
    exact ⟨b, htext, fun _ => ⟨mem_scanned_of_ofByte? hb, text_of_ofByte? hb⟩⟩

/-- The token of a piece starts behind its spaces. -/
theorem start_token (line : Int) (before : Bytes) (p : Piece) :
    (token line (before.length + 1) p).start = before.length + p.gap.length := by
  simp only [Token.start, token]
  omega

/-- From the start of its token on, the text is that of the piece and what comes after it. -/
theorem drop_start_token (line : Int) (before : Bytes) (p : Piece) (rest : Bytes) :
    (before ++ (p.gap ++ (p.text ++ rest))).drop (token line (before.length + 1) p).start =
      p.text ++ rest := by
  rw [start_token, ← List.append_assoc, List.drop_left' (by simp)]

/-- The token of a piece takes up its text. -/
theorem Fits.span_token {p : Piece} {rest : Bytes} (h : Fits p rest) (line : Int)
    (before : Bytes) :
    (token line (before.length + 1) p).span (before ++ (p.gap ++ (p.text ++ rest))) = p.text := by
  rw [Token.span, drop_start_token, h.width_token, List.take_left]

/-- Behind the token of a piece comes what comes after the piece. -/
theorem Fits.getElem?_stop_token {p : Piece} {rest : Bytes} (h : Fits p rest) (line : Int)
    (before : Bytes) :
    (before ++ (p.gap ++ (p.text ++ rest)))[(token line (before.length + 1) p).stop]? =
      rest.head? := by
  rw [Token.stop, h.width_token, ← List.getElem?_drop, drop_start_token,
    List.getElem?_append_right le_rfl, Nat.sub_self, List.head?_eq_getElem?]

/-- **A piece is a token of its text.**  Whatever text is in front of a piece that fits, its token
tiles the whole text. -/
theorem Fits.tiles {p : Piece} {rest : Bytes} (h : Fits p rest) (line : Int) (before : Bytes) :
    (token line (before.length + 1) p).Tiles (before ++ (p.gap ++ (p.text ++ rest))) := by
  have hspells := h.spells.1
  have hspan := h.span_token line before
  have hbehind := h.getElem?_stop_token line before
  constructor
  case column_pos => exact Nat.lt_of_lt_of_le before.length.succ_pos (Nat.le_add_right _ _)
  case width_pos => exact h.width_token line _ ▸ h.text_pos
  case stop_le =>
      rw [Token.stop, start_token, h.width_token]
      simp only [List.length_append]
      omega
  case legal =>
      intro hk
      rw [hspan]
      exact spelling_of_ne_illegal hk
  case illegal =>
      intro (hk : p.kind = .illegal)
      obtain ⟨b, htext, -⟩ := h.single (by simp [hk]) (by simp [hk])
      refine ⟨b, hspan.trans htext, ?_⟩
      simp [token, Cursor.spelling, hk, htext]
  case first =>
      obtain ⟨-, b, r, htext, hspace, hfirst⟩ := h
      have hfront : (before ++ (p.gap ++ (p.text ++ rest)))[
          (token line (before.length + 1) p).start]? = some b := by
        rw [← Nat.add_zero (Token.start _), ← List.getElem?_drop, drop_start_token, htext]
        rfl
      have hkind := Lexeme.first_kind_eq_illegal_iff b r
      rw [hfirst] at hkind
      rw [hfront]
      rintro c ⟨⟩
      exact ⟨hspace, hkind⟩
  case ident =>
      intro (hk : p.kind = .ident)
      rw [hspan, hbehind]
      exact ⟨hk ▸ hspells, h.breaks_of_ident hk⟩
  case number =>
      intro (hk : p.kind = .number)
      rw [hspan, hbehind]
      exact ⟨hk ▸ hspells, h.breaks_of_number hk⟩
  case single =>
      rw [hspan]
      exact h.single

/-! ## All pieces of a layout -/

/-- All placed tokens tile the text, whatever is in front of it. -/
theorem tiles_place (line : Int) {ps : List Piece} {tail : Bytes} (h : IsLayout ps tail) :
    ∀ before : Bytes, ∀ t ∈ place line (before.length + 1) ps,
      t.Tiles (before ++ render ps tail) := by
  induction ps with
  | nil => simp [place]
  | cons p ps ih =>
      intro before
      refine List.forall_mem_cons.2 ⟨h.1.tiles line before, ?_⟩
      -- what is in front of the other pieces is longer by the first one
      have hothers := ih h.2 (before ++ (p.gap ++ p.text))
      have hlength : (before ++ (p.gap ++ p.text)).length + 1 =
          before.length + 1 + p.gap.length + p.text.length := by
        simp only [List.length_append]
        omega
      rw [hlength] at hothers
      simpa only [render, List.append_assoc] using hothers

/-- A placed token does not start in front of the first place. -/
theorem column_le_of_mem_place {line : Int} {ps : List Piece} {t : Token} :
    ∀ {column : Nat}, t ∈ place line column ps → column ≤ t.column := by
  induction ps with
  | nil => exact fun h => absurd h (by simp [place])
  | cons p ps ih =>
      intro column h
      rcases List.mem_cons.1 h with rfl | h
      · exact Nat.le_add_right _ _
      · have := ih h
        omega

/-- Placed tokens stand one behind the other. -/
theorem pairwise_place {line : Int} {ps : List Piece} {tail : Bytes} (h : IsLayout ps tail) :
    ∀ {column : Nat}, 0 < column →
      (place line column ps).Pairwise fun t u => t.stop ≤ u.start := by
  induction ps with
  | nil => exact fun _ => List.Pairwise.nil
  | cons p ps ih =>
      intro column hcolumn
      refine List.Pairwise.cons (fun u hu => ?_) (ih h.2 (by omega))
      have hle := column_le_of_mem_place hu
      rw [Token.stop, h.1.width_token]
      simp only [Token.start, token]
      omega

/-- A byte of a layout that is no space is taken up by a placed token. -/
theorem exists_covers_place (line : Int) {ps : List Piece} {tail : Bytes} (h : IsLayout ps tail) :
    ∀ (column i : Nat) (b : UInt8), 0 < column → (render ps tail)[i]? = some b →
      isSpace b = false → ∃ t ∈ place line column ps, t.Covers (column - 1 + i) := by
  induction ps with
  | nil =>
      intro column i b _ hi hb
      have := h b (List.mem_of_getElem? hi)
      simp_all
  | cons p ps ih =>
      intro column i b hcolumn hi hb
      rw [render] at hi
      rcases Nat.lt_or_ge i p.gap.length with hgap | hgap
      · rw [List.getElem?_append_left hgap] at hi
        have := h.1.gap b (List.mem_of_getElem? hi)
        simp_all
      · rw [List.getElem?_append_right hgap] at hi
        rcases Nat.lt_or_ge (i - p.gap.length) p.text.length with htext | htext
        · refine ⟨_, List.mem_cons_self, ?_⟩
          rw [Token.Covers, Token.stop, h.1.width_token]
          simp only [Token.start, token]
          omega
        · rw [List.getElem?_append_right htext] at hi
          obtain ⟨t, ht, hcovers⟩ :=
            ih h.2 (column + p.gap.length + p.text.length) _ b (by omega) hi hb
          refine ⟨t, List.mem_cons_of_mem _ ht, ?_⟩
          rwa [show column + p.gap.length + p.text.length - 1 + (i - p.gap.length - p.text.length) =
            column - 1 + i by omega] at hcovers

end Layout

/-! ## The scanner -/

namespace Cursor

/-- The cursor at an offset of a text. -/
def atByte (line : Int) (s : Bytes) (p : Nat) : Cursor := ⟨line, p + 1, s.drop p⟩

/-- The cursor after so many more tokens. -/
def after : Nat → Cursor → Cursor
  | 0, c => c
  | n + 1, c => after n c.next.2

/-- One token more is taken from behind the others. -/
theorem after_succ (n : Nat) (c : Cursor) : after (n + 1) c = (after n c).next.2 := by
  induction n generalizing c with
  | zero => rfl
  | succ n ih => exact ih c.next.2

/-- **A step of the scanner.**  From an offset inside the text the next token leads to a later one
that is still inside. -/
theorem exists_next_atByte (line : Int) (s : Bytes) {p : Nat} (hp : p ≤ s.length) :
    ∃ q, p ≤ q ∧ q ≤ s.length ∧ (atByte line s p).next.2 = atByte line s q := by
  obtain ⟨ps, tail, hrender, hlayout⟩ := Layout.exists_isLayout (s.drop p)
  have hlength := congrArg List.length hrender
  simp only [List.length_drop] at hlength
  cases ps with
  | nil =>
      rw [Layout.render] at hrender hlength
      refine ⟨s.length, hp, le_rfl, ?_⟩
      rw [atByte, atByte, ← hrender, Layout.next_of_spaces hlayout, List.drop_length]
      simp only [Cursor.mk.injEq, and_true, true_and]
      omega
  | cons piece ps =>
      rw [Layout.render] at hrender hlength
      simp only [List.length_append] at hlength
      refine ⟨p + piece.gap.length + piece.text.length, by omega, by omega, ?_⟩
      have hrest : s.drop (p + piece.gap.length + piece.text.length) = Layout.render ps tail := by
        rw [Nat.add_assoc, ← List.drop_drop, ← hrender, ← List.append_assoc,
          List.drop_left' (by simp)]
      rw [atByte, atByte, ← hrender, Layout.next_of_fits hlayout.1, hrest]
      simp only [Cursor.mk.injEq, and_true, true_and]
      omega

/-- However many tokens are taken, the cursor stands inside the text. -/
theorem exists_after_atByte (line : Int) (s : Bytes) (n : Nat) :
    ∃ p ≤ s.length, after n (atByte line s 0) = atByte line s p := by
  induction n with
  | zero => exact ⟨0, Nat.zero_le _, rfl⟩
  | succ n ih =>
      obtain ⟨p, hp, hafter⟩ := ih
      obtain ⟨q, -, hq, hnext⟩ := exists_next_atByte line s hp
      exact ⟨q, hq, by rw [after_succ, hafter, hnext]⟩

/-- At the end of a text every further token is the end. -/
theorem next_after_of_rest_eq_nil (line : Int) (column n : Nat) :
    (after n ⟨line, column, []⟩).next.1 = ⟨.eof, [], line, column⟩ := by
  induction n with
  | zero => rfl
  | succ n ih => exact ih

/-- The tokens of a layout come one after the other, and then the end over and over. -/
theorem next_after {line : Int} {ps : List Piece} {tail : Bytes} (h : Layout.IsLayout ps tail) :
    ∀ column n, (after n ⟨line, column, Layout.render ps tail⟩).next.1 =
      (Layout.place line column ps)[n]?.getD
        (Layout.endToken line column (Layout.render ps tail)) := by
  induction ps with
  | nil =>
      intro column n
      cases n with
      | zero => exact congrArg Prod.fst (Layout.next_of_spaces h)
      | succ n =>
          rw [Layout.render, after, Layout.next_of_spaces h]
          exact next_after_of_rest_eq_nil line _ n
  | cons p ps ih =>
      intro column n
      cases n with
      | zero => exact congrArg Prod.fst (Layout.next_of_fits h.1)
      | succ n =>
          rw [Layout.render, after, Layout.next_of_fits h.1, ih h.2, Layout.place]
          simp [Layout.endToken, Nat.add_assoc]

end Cursor

/-! ## A whole text -/

/-- Every token of a text but the end tiles it. -/
theorem Token.tiles_of_mem_scan {line : Int} {s : Bytes} {t : Token} (ht : t ∈ Token.scan line s)
    (hk : t.kind ≠ .eof) : t.Tiles s := by
  obtain ⟨ps, tail, rfl, hlayout⟩ := Layout.exists_isLayout s
  rw [Layout.scan_render hlayout] at ht
  rcases List.mem_append.1 ht with ht | ht
  · exact Layout.tiles_place line hlayout [] t ht
  · exact absurd (congrArg Token.kind (List.mem_singleton.1 ht)) hk

/-- **The tokens of a text tile it.**  Its tokens, all on its line, stand one behind the other,
each on a span of the text that it takes up whole; only spaces are left between them.  The last
token is the end, which is behind the last byte and the only one there is.  Taken one by one, the
tokens are the same, the scanner goes forward from offset to offset without leaving the text, and
behind the last token every further one is the end again. -/
theorem Token.scan_tiles (line : Int) (s : Bytes) :
    ∃ ts last, Token.scan line s = ts ++ [last] ∧ last = ⟨.eof, [], line, s.length + 1⟩ ∧
      (∀ t ∈ ts, t.kind ≠ .eof ∧ t.line = line ∧ t.Tiles s) ∧
      ts.Pairwise (fun t u => t.stop ≤ u.start) ∧
      (∀ i b, s[i]? = some b → (∀ t ∈ ts, ¬t.Covers i) → isSpace b) ∧
      ∀ n, ((Cursor.atByte line s 0).after n).next.1 = ts[n]?.getD last ∧
        ∃ p q, p ≤ q ∧ q ≤ s.length ∧ (Cursor.atByte line s 0).after n = .atByte line s p ∧
          (Cursor.atByte line s 0).after (n + 1) = .atByte line s q := by
  obtain ⟨ps, tail, rfl, hlayout⟩ := Layout.exists_isLayout s
  refine ⟨_, _, Layout.scan_render hlayout, ?_, fun t ht => ⟨hlayout.kind_ne_eof t ht,
    Layout.line_of_mem_place ht, Layout.tiles_place line hlayout [] t ht⟩,
    Layout.pairwise_place hlayout Nat.one_pos, ?_, fun n => ⟨Cursor.next_after hlayout 1 n, ?_⟩⟩
  · rw [Layout.endToken, Nat.add_comm]
  · intro i b hi hfree
    by_contra hspace
    obtain ⟨t, ht, hcovers⟩ := Layout.exists_covers_place line hlayout 1 i b Nat.one_pos hi
      (by simpa using hspace)
    rw [Nat.sub_self, Nat.zero_add] at hcovers
    exact hfree t ht hcovers
  · obtain ⟨p, hp, hafter⟩ := Cursor.exists_after_atByte line (Layout.render ps tail) n
    obtain ⟨q, hpq, hq, hnext⟩ := Cursor.exists_next_atByte line (Layout.render ps tail) hp
    exact ⟨p, q, hpq, hq, hafter, by rw [Cursor.after_succ, hafter, hnext]⟩

end LineCalc
