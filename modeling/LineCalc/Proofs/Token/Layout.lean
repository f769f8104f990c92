import LineCalc.Token.Scan
import Mathlib.Data.List.Chain
import Mathlib.Data.List.TakeWhile
/-!
# Layouts

A text is a row of pieces, each some spaces and a token behind them, and the spaces at its end.
Scanning and laying out are inverse to each other.

* `Layout.exists_isLayout` : every text has a layout;
* `Layout.tokens_render` : scanning a layout gives back its pieces, each at its column;
* `Layout.isLayout_of_apart` : spelled tokens make a layout if spaces or signs keep the operands
  apart.
-/
namespace LineCalc

/-- The tokens that are operands by themselves. -/
theorem TokenKind.isOperand_iff (k : TokenKind) : k.isOperand ↔ k = .ident ∨ k = .number := by
  cases k <;> simp [TokenKind.isOperand]

/-- A token as written, with the spaces in front of it. -/
structure Piece where
  gap : Bytes
  kind : TokenKind
  text : Bytes

namespace Layout

/-! ## Texts as rows of pieces -/

/-- The text of a row of pieces and of what comes after them. -/
def render : List Piece → Bytes → Bytes
  | [], tail => tail
  | p :: ps, tail => p.gap ++ (p.text ++ render ps tail)

/-- In front of `rest`, the piece is cut off as it is. -/
structure Fits (p : Piece) (rest : Bytes) : Prop where
  gap : ∀ b ∈ p.gap, isSpace b
  cut : ∃ b r, p.text ++ rest = b :: r ∧ isSpace b = false ∧
    Lexeme.first b r = ⟨p.kind, p.text, rest⟩

/-- The pieces are cut off one after the other, and only spaces are left. -/
def IsLayout : List Piece → Bytes → Prop
  | [], tail => ∀ b ∈ tail, isSpace b
  | p :: ps, tail => Fits p (render ps tail) ∧ IsLayout ps tail

/-- The token of a piece that starts at the given column. -/
def token (line : Int) (column : Nat) (p : Piece) : Token :=
  ⟨p.kind, Cursor.spelling ⟨p.kind, p.text, []⟩, line, column + p.gap.length⟩

/-- The tokens of a row of pieces that starts at the given column. -/
def place (line : Int) : (column : Nat) → List Piece → List Token
  | _, [] => []
  | column, p :: ps => token line column p :: place line (column + p.gap.length + p.text.length) ps

/-- The token at the end of a text that starts at the given column. -/
def endToken (line : Int) (column : Nat) (s : Bytes) : Token :=
  ⟨.eof, [], line, column + s.length⟩

/-! ## Cutting off one token -/

/-- The characters of the language, each with its kind. -/
def characters : List (UInt8 × TokenKind) :=
  [(0x3d, .assign), (0x2b, .plus), (0x2d, .minus), (0x2a, .times), (0x2f, .slash), (0x28, .lparen),
    (0x29, .rparen), (0x3b, .semicolon)]

/-- A byte that has a kind is a character of the language. -/
theorem mem_characters {b : UInt8} {k : TokenKind} (h : TokenKind.ofByte? b = some k) :
    (b, k) ∈ characters := by
  unfold TokenKind.ofByte? at h
  split_ifs at h with hb hb hb hb hb hb hb hb
  all_goals
    cases h
    subst hb
    decide

/-- No character stands for the end of a line. -/
theorem ofByte?_ne_eof (b : UInt8) : TokenKind.ofByte? b ≠ some .eof := fun h =>
  absurd rfl ((by decide : ∀ p ∈ characters, p.2 ≠ .eof) _ (mem_characters h))

/-- No character of the language is illegal. -/
theorem ofByte?_ne_illegal (b : UInt8) : TokenKind.ofByte? b ≠ some .illegal := fun h =>
  absurd rfl ((by decide : ∀ p ∈ characters, p.2 ≠ .illegal) _ (mem_characters h))

/-- No lexeme is the end of a line. -/
theorem first_kind_ne_eof (b : UInt8) (r : Bytes) : (Lexeme.first b r).kind ≠ .eof := by
  unfold Lexeme.first
  split
  · simp
  · split
    · unfold Lexeme.number
      split <;> simp
    · have := ofByte?_ne_eof b
      cases h : TokenKind.ofByte? b <;> simp_all

/-- Spaces are skipped up to the first byte that is none. -/
theorem skip_append {line : Int} {column : Nat} {gap : Bytes} {b : UInt8} {r : Bytes}
    (hgap : ∀ b ∈ gap, isSpace b) (hb : isSpace b = false) :
    Cursor.skip ⟨line, column, gap ++ b :: r⟩ = ⟨line, column + gap.length, b :: r⟩ := by
  rw [Cursor.skip, List.takeWhile_append_of_pos hgap, List.dropWhile_append_of_pos hgap,
    List.takeWhile_cons_of_neg (by simp [hb]), List.dropWhile_cons_of_neg (by simp [hb])]
  simp

/-- A piece that fits is the next token, and the cursor then stands behind it. -/
theorem next_of_fits {line : Int} {column : Nat} {p : Piece} {rest : Bytes} (h : Fits p rest) :
    Cursor.next ⟨line, column, p.gap ++ (p.text ++ rest)⟩ =
      (token line column p, ⟨line, column + p.gap.length + p.text.length, rest⟩) := by
  obtain ⟨hgap, b, r, htext, hb, hfirst⟩ := h
  rw [htext, Cursor.next, skip_append hgap hb]
  simp only [hfirst, token]
  rfl

/-- Only spaces are left: the next token is the end. -/
theorem next_of_spaces {line : Int} {column : Nat} {tail : Bytes} (h : ∀ b ∈ tail, isSpace b) :
    Cursor.next ⟨line, column, tail⟩ =
      (endToken line column tail, ⟨line, column + tail.length, []⟩) := by
  have hskip : Cursor.skip ⟨line, column, tail⟩ = ⟨line, column + tail.length, []⟩ := by
    rw [Cursor.skip, List.takeWhile_eq_self_iff.2 h, List.dropWhile_eq_nil_iff.2 h]
  rw [Cursor.next, hskip]
  rfl

/-- A piece that fits is the first of the tokens. -/
theorem tokens_of_fits {line : Int} {column : Nat} {p : Piece} {rest : Bytes} (h : Fits p rest) :
    Cursor.tokens ⟨line, column, p.gap ++ (p.text ++ rest)⟩ =
      token line column p ::
        Cursor.tokens ⟨line, column + p.gap.length + p.text.length, rest⟩ := by
  have hkind : (token line column p).kind ≠ .eof := by
    obtain ⟨-, b, r, -, -, hfirst⟩ := h
    have := first_kind_ne_eof b r
    rwa [hfirst] at this
  rw [Cursor.tokens, next_of_fits h]
  exact dif_neg hkind

/-- Only spaces are left: the end is the only token. -/
theorem tokens_of_spaces {line : Int} {column : Nat} {tail : Bytes} (h : ∀ b ∈ tail, isSpace b) :
    Cursor.tokens ⟨line, column, tail⟩ = [endToken line column tail] := by
  rw [Cursor.tokens, next_of_spaces h]
  rfl

/-! ## Scanning a layout -/

/-- **Scanning undoes laying out.**  The tokens of a layout are its pieces, each at its column, and
the end. -/
theorem tokens_render {line : Int} {ps : List Piece} {tail : Bytes} (h : IsLayout ps tail) :
    ∀ column, Cursor.tokens ⟨line, column, render ps tail⟩ =
      place line column ps ++ [endToken line column (render ps tail)] := by
  induction ps with
  | nil => exact fun column => tokens_of_spaces h
  | cons p ps ih =>
      intro column
      rw [render, tokens_of_fits h.1, ih h.2, place]
      simp [endToken, Nat.add_assoc]

/-- The same from the start of a line on. -/
theorem scan_render {line : Int} {ps : List Piece} {tail : Bytes} (h : IsLayout ps tail) :
    Token.scan line (render ps tail) =
      place line 1 ps ++ [endToken line 1 (render ps tail)] :=
  tokens_render h 1

/-- Every text has a layout. -/
theorem exists_isLayout (s : Bytes) : ∃ ps tail, render ps tail = s ∧ IsLayout ps tail := by
  induction hn : s.length using Nat.strong_induction_on generalizing s with
  | h n ih =>
      cases hdrop : s.dropWhile isSpace with
      | nil => exact ⟨[], s, rfl, List.dropWhile_eq_nil_iff.1 hdrop⟩
      | cons b r =>
          have hsplit := List.takeWhile_append_dropWhile (p := isSpace) (l := s)
          have happend := Lexeme.first_append b r
          have hrest := Lexeme.first_rest_length_le b r
          have hlength : (b :: r).length ≤ s.length := by
            rw [← hdrop]
            exact (List.dropWhile_sublist _).length_le
          obtain ⟨ps, tail, hps, hlayout⟩ := ih (Lexeme.first b r).rest.length
            (by simp only [List.length_cons] at hlength; omega) _ rfl
          refine ⟨⟨s.takeWhile isSpace, (Lexeme.first b r).kind, (Lexeme.first b r).text⟩ :: ps,
            tail, ?_, ⟨?_, b, r, ?_, ?_, ?_⟩, hlayout⟩
          · rw [render, hps, happend, ← hdrop, hsplit]
          · exact fun c hc => List.mem_takeWhile_imp hc
          · rw [hps, happend]
          · have hhead := List.head?_dropWhile_not isSpace s
            rwa [hdrop] at hhead
          · rw [hps]

/-! ## Spelling -/

/-- The text is a token of the kind, written out. -/
def Spells : TokenKind → Bytes → Prop
  | .ident, s => ∃ b r, s = b :: r ∧ Bytes.isLetter b ∧ ∀ c ∈ r, Bytes.isWord c
  | .number, s => ∃ b ds, Bytes.isDigit b ∧ (∀ d ∈ ds, Bytes.isDigit d) ∧
      (s = b :: ds ∨ ∃ fs, (∀ d ∈ fs, Bytes.isDigit d) ∧ s = b :: (ds ++ 0x2e :: fs))
  | k, s => ∃ b, s = [b] ∧ isSpace b = false ∧ Bytes.isLetter b = false ∧
      Bytes.isDigit b = false ∧ (TokenKind.ofByte? b).getD .illegal = k

/-- Nothing that could go on a name or a number comes first. -/
def Breaks (rest : Bytes) : Prop := ∀ b ∈ rest.head?, Bytes.isWord b = false ∧ b ≠ 0x2e

/-- Digits are no letters. -/
theorem isLetter_of_isDigit {b : UInt8} (h : Bytes.isDigit b) : Bytes.isLetter b = false := by
  grind [Bytes.isDigit, Bytes.isLetter]

/-- What starts a name or a number is no space. -/
theorem isSpace_of_isWord {b : UInt8} (h : Bytes.isWord b) : isSpace b = false := by
  grind [Bytes.isWord, Bytes.isDigit, Bytes.isLetter, isSpace]

/-- A character of the language goes on no name and no number. -/
theorem breaks_of_ofByte? {b : UInt8} {k : TokenKind} (h : TokenKind.ofByte? b = some k) :
    Bytes.isWord b = false ∧ b ≠ 0x2e :=
  (by decide : ∀ p ∈ characters, Bytes.isWord p.1 = false ∧ p.1 ≠ 0x2e) _ (mem_characters h)

/-- A character of the language is spelled as its kind is named. -/
theorem text_of_ofByte? {b : UInt8} {k : TokenKind} (h : TokenKind.ofByte? b = some k) :
    k.text = [b] :=
  (by decide : ∀ p ∈ characters, p.2.text = [p.1]) _ (mem_characters h)

/-- The kind of a character is one that the scanner makes. -/
theorem mem_scanned_of_ofByte? {b : UInt8} {k : TokenKind} (h : TokenKind.ofByte? b = some k) :
    k ∈ TokenKind.scanned :=
  (by decide : ∀ p ∈ characters, p.2 ∈ TokenKind.scanned) _ (mem_characters h)

/-- A space goes on no name and no number. -/
theorem breaks_of_isSpace {b : UInt8} (h : isSpace b) : Bytes.isWord b = false ∧ b ≠ 0x2e := by
  simp only [isSpace, Bool.or_eq_true, beq_iff_eq] at h
  rcases h with ((rfl | rfl) | rfl) | rfl <;> decide

/-- The characters of the language are neither names nor numbers. -/
theorem ofByte?_getD_isOperand (b : UInt8) :
    ((TokenKind.ofByte? b).getD .illegal).isOperand = false := by
  cases h : TokenKind.ofByte? b with
  | none => rfl
  | some k =>
      exact (by decide : ∀ p ∈ characters, p.2.isOperand = false) _ (mem_characters h)

/-- A token of one character, which is no operand. -/
theorem spells_iff_of_not_isOperand {k : TokenKind} {s : Bytes} (hk : k.isOperand = false) :
    Spells k s ↔ ∃ b, s = [b] ∧ isSpace b = false ∧ Bytes.isLetter b = false ∧
      Bytes.isDigit b = false ∧ (TokenKind.ofByte? b).getD .illegal = k := by
  cases k <;> first | rfl | cases hk

/-- A token of the language that is no operand is one of its characters. -/
theorem exists_byte_of_spells {k : TokenKind} {s : Bytes} (hk : k.isOperand = false)
    (hlegal : k ≠ .illegal) (h : Spells k s) : ∃ b, s = [b] ∧ TokenKind.ofByte? b = some k := by
  obtain ⟨b, rfl, -, -, -, hbyte⟩ := (spells_iff_of_not_isOperand hk).1 h
  refine ⟨b, rfl, ?_⟩
  cases hb : TokenKind.ofByte? b with
  | none =>
      rw [hb] at hbyte
      exact absurd hbyte.symm hlegal
  | some k' =>
      rw [hb] at hbyte
      exact congrArg some hbyte

/-- It is spelled as its kind is named. -/
theorem text_of_spells {k : TokenKind} {s : Bytes} (hk : k.isOperand = false)
    (hlegal : k ≠ .illegal) (h : Spells k s) : s = k.text := by
  obtain ⟨b, rfl, hb⟩ := exists_byte_of_spells hk hlegal h
  exact (text_of_ofByte? hb).symm

/-! ## Cutting what is spelled -/

/-- The longest run of a class of bytes ends where the next byte is not in it. -/
theorem span_append {p : UInt8 → Bool} {l rest : Bytes} (hl : ∀ b ∈ l, p b)
    (hrest : ∀ b ∈ rest.head?, p b = false) :
    (l ++ rest).takeWhile p = l ∧ (l ++ rest).dropWhile p = rest := by
  rw [List.takeWhile_append_of_pos hl, List.dropWhile_append_of_pos hl]
  cases rest with
  | nil => simp
  | cons b r =>
      have hb : p b = false := hrest b rfl
      rw [List.takeWhile_cons_of_neg (by simp [hb]), List.dropWhile_cons_of_neg (by simp [hb])]
      simp

/-- A number in front of something that does not go on it is cut off whole. -/
theorem number_of_spells {s rest : Bytes} (h : Spells .number s) (hrest : Breaks rest) :
    Lexeme.number (s ++ rest) = ⟨.number, s, rest⟩ := by
  have hdigit : ∀ b ∈ rest.head?, Bytes.isDigit b = false := fun b hb => by
    have := (hrest b hb).1
    simp_all [Bytes.isWord]
  obtain ⟨b, ds, hb, hds, hs⟩ := h
  have hall : ∀ d ∈ b :: ds, Bytes.isDigit d := List.forall_mem_cons.2 ⟨hb, hds⟩
  rcases hs with rfl | ⟨fs, hfs, rfl⟩
  · obtain ⟨htake, hdrop⟩ := span_append hall hdigit
    rw [Lexeme.number, htake, hdrop]
    split
    · next r => exact absurd rfl (hrest 0x2e rfl).2
    · rfl
  · have hpoint : ∀ b ∈ (0x2e :: (fs ++ rest)).head?, Bytes.isDigit b = false := by
      rintro b ⟨⟩
      decide
    obtain ⟨htake, hdrop⟩ := span_append hall hpoint
    obtain ⟨hftake, hfdrop⟩ := span_append hfs hdigit
    have happend : b :: (ds ++ 0x2e :: fs) ++ rest = b :: ds ++ 0x2e :: (fs ++ rest) := by simp
    rw [happend, Lexeme.number, htake, hdrop]
    show Lexeme.mk .number (b :: ds ++ 0x2e :: (fs ++ rest).takeWhile Bytes.isDigit)
      ((fs ++ rest).dropWhile Bytes.isDigit) = _
    rw [hftake, hfdrop]
    rfl

/-- The number at the front of a text that starts with a digit is spelled. -/
theorem spells_number {b : UInt8} {r : Bytes} (hb : Bytes.isDigit b) :
    (Lexeme.number (b :: r)).kind = .number ∧ Spells .number (Lexeme.number (b :: r)).text := by
  have hdigits : ∀ s : Bytes, ∀ d ∈ s.takeWhile Bytes.isDigit, Bytes.isDigit d :=
    fun s d hd => List.mem_takeWhile_imp hd
  have htake : (b :: r).takeWhile Bytes.isDigit = b :: r.takeWhile Bytes.isDigit :=
    List.takeWhile_cons_of_pos hb
  unfold Lexeme.number
  rw [htake]
  split
  · next r' _ => exact ⟨rfl, b, _, hb, hdigits r, .inr ⟨_, hdigits r', rfl⟩⟩
  · exact ⟨rfl, b, _, hb, hdigits r, .inl rfl⟩

/-- What is cut off is spelled. -/
theorem spells_first {b : UInt8} (r : Bytes) (hb : isSpace b = false) :
    Spells (Lexeme.first b r).kind (Lexeme.first b r).text := by
  unfold Lexeme.first
  split
  · next hletter => exact ⟨b, _, rfl, hletter, fun c hc => List.mem_takeWhile_imp hc⟩
  · next hletter =>
      split
      · next hdigit =>
          obtain ⟨hkind, hspells⟩ := spells_number (r := r) hdigit
          rwa [hkind]
      · next hdigit =>
          exact (spells_iff_of_not_isOperand (ofByte?_getD_isOperand b)).2
            ⟨b, rfl, hb, by simpa using hletter, by simpa using hdigit, rfl⟩

/-- A spelled token fits in front of something that does not go on it. -/
theorem fits_of_spells {gap : Bytes} {k : TokenKind} {s rest : Bytes} (hgap : ∀ b ∈ gap, isSpace b)
    (h : Spells k s) (hrest : k.isOperand → Breaks rest) : Fits ⟨gap, k, s⟩ rest := by
  refine ⟨hgap, ?_⟩
  cases hk : k.isOperand with
  | false =>
      obtain ⟨b, rfl, hspace, hletter, hdigit, hkind⟩ := (spells_iff_of_not_isOperand hk).1 h
      refine ⟨b, rest, rfl, hspace, ?_⟩
      simp [Lexeme.first, hletter, hdigit, hkind]
  | true =>
      have hbreak := hrest hk
      rcases (TokenKind.isOperand_iff k).1 hk with rfl | rfl
      · obtain ⟨b, r, rfl, hletter, hword⟩ := h
        obtain ⟨htake, hdrop⟩ := span_append hword fun c hc => (hbreak c hc).1
        refine ⟨b, r ++ rest, rfl, isSpace_of_isWord (by simp [Bytes.isWord, hletter]), ?_⟩
        simp [Lexeme.first, hletter, htake, hdrop]
      · have hnumber := number_of_spells h hbreak
        obtain ⟨b, r, hdigit, rfl⟩ : ∃ b r, Bytes.isDigit b ∧ s = b :: r := by
          obtain ⟨b, ds, hb, -, rfl | ⟨fs, -, rfl⟩⟩ := h
          · exact ⟨b, ds, hb, rfl⟩
          · exact ⟨b, _, hb, rfl⟩
        refine ⟨b, r ++ rest, rfl, isSpace_of_isWord (by simp [Bytes.isWord, hdigit]), ?_⟩
        rw [List.cons_append] at hnumber
        simp [Lexeme.first, isLetter_of_isDigit hdigit, hdigit, hnumber]

/-! ## Layouts of spelled tokens -/

/-- Two neighbours keep apart: they are not both operands, or there is a space between them. -/
def Apart (p q : Piece) : Prop := p.kind.isOperand → q.gap ≠ [] ∨ q.kind.isOperand = false

/-- The piece is a spelled token of the language behind spaces. -/
structure Proper (p : Piece) : Prop where
  gap : ∀ b ∈ p.gap, isSpace b
  spells : Spells p.kind p.text
  legal : p.kind ≠ .illegal

/-- A character of the language is a token that breaks off what stands before it. -/
theorem Proper.breaks {p : Piece} (h : Proper p) (hkind : p.gap ≠ [] ∨ p.kind.isOperand = false)
    (rest : Bytes) : Breaks (p.gap ++ (p.text ++ rest)) := by
  cases hgap : p.gap with
  | cons c cs =>
      rintro b ⟨⟩
      exact breaks_of_isSpace (h.gap c (by simp [hgap]))
  | nil =>
      obtain ⟨b, hb, hbyte⟩ :=
        exists_byte_of_spells (hkind.resolve_left (by simp [hgap])) h.legal h.spells
      rw [hb]
      rintro b ⟨⟩
      exact breaks_of_ofByte? hbyte

/-- Proper pieces make a layout in front of spaces if neighbours keep apart. -/
theorem isLayout_of_apart {ps : List Piece} {tail : Bytes} (hproper : ∀ p ∈ ps, Proper p)
    (hapart : ps.IsChain Apart) (htail : ∀ b ∈ tail, isSpace b) : IsLayout ps tail := by
  induction ps with
  | nil => exact htail
  | cons p ps ih =>
      obtain ⟨hhead, hchain⟩ := List.isChain_cons.1 hapart
      obtain ⟨hp, hps⟩ := List.forall_mem_cons.1 hproper
      refine ⟨fits_of_spells hp.gap hp.spells ?_, ih hps hchain⟩
      intro hoperand
      -- an operand is cut off whole only if the next piece starts with a break
      cases ps with
      | nil => exact fun b hb => breaks_of_isSpace (htail b (List.mem_of_mem_head? hb))
      | cons q qs => exact (hps q List.mem_cons_self).breaks (hhead q rfl hoperand) _

/-! ## What is scanned -/

/-- A placed token is that of a piece. -/
theorem exists_piece_of_mem_place {line : Int} {ps : List Piece} {t : Token} :
    ∀ {column : Nat}, t ∈ place line column ps →
      ∃ p ∈ ps, t.kind = p.kind ∧ t.lexeme = Cursor.spelling ⟨p.kind, p.text, []⟩ := by
  induction ps with
  | nil => exact fun h => absurd h (by simp [place])
  | cons p ps ih =>
      intro column h
      rcases List.mem_cons.1 h with rfl | h
      · exact ⟨p, by simp, rfl, rfl⟩
      · obtain ⟨q, hq, hkind, hlexeme⟩ := ih h
        exact ⟨q, List.mem_cons_of_mem _ hq, hkind, hlexeme⟩

/-- A placed token is on the line that it was placed on. -/
theorem line_of_mem_place {line : Int} {ps : List Piece} {t : Token} :
    ∀ {column : Nat}, t ∈ place line column ps → t.line = line := by
  induction ps with
  | nil => exact fun h => absurd h (by simp [place])
  | cons p ps ih =>
      intro column h
      rcases List.mem_cons.1 h with rfl | h
      · rfl
      · exact ih h

/-- All tokens of a text are on its line. -/
theorem line_of_mem_scan {line : Int} {s : Bytes} {t : Token} (ht : t ∈ Token.scan line s) :
    t.line = line := by
  obtain ⟨ps, tail, rfl, h⟩ := exists_isLayout s
  rw [scan_render h] at ht
  rcases List.mem_append.1 ht with ht | ht
  · exact line_of_mem_place ht
  · rw [List.mem_singleton.1 ht]
    rfl

/-- A piece that fits is spelled and is not the end. -/
theorem Fits.spells {p : Piece} {rest : Bytes} (h : Fits p rest) :
    Spells p.kind p.text ∧ p.kind ≠ .eof := by
  obtain ⟨-, b, r, -, hb, hfirst⟩ := h
  have hspells := spells_first r hb
  have hkind := first_kind_ne_eof b r
  rw [hfirst] at hspells hkind
  exact ⟨hspells, hkind⟩

/-- A name is cut off where no character of a name follows. -/
theorem Fits.breaks_of_ident {p : Piece} {rest : Bytes} (h : Fits p rest) (hk : p.kind = .ident) :
    ∀ b ∈ rest.head?, Bytes.isWord b = false := by
  obtain ⟨-, b, r, -, -, hfirst⟩ := h
  unfold Lexeme.first at hfirst
  split at hfirst
  · have hrest : r.dropWhile Bytes.isWord = rest := congrArg Lexeme.rest hfirst
    intro c hc
    have hhead := List.head?_dropWhile_not Bytes.isWord r
    rw [hrest, Option.mem_def.1 hc] at hhead
    exact hhead
  · have hkind := congrArg Lexeme.kind hfirst
    rw [hk] at hkind
    split at hkind
    · next hdigit => simp [(spells_number (r := r) hdigit).1] at hkind
    · have := ofByte?_getD_isOperand b
      simp only at hkind
      rw [hkind] at this
      cases this

/-- The pieces of a layout are spelled and are not the end. -/
theorem IsLayout.spells {ps : List Piece} {tail : Bytes} (h : IsLayout ps tail) :
    ∀ p ∈ ps, Spells p.kind p.text ∧ p.kind ≠ .eof := by
  induction ps with
  | nil => simp
  | cons p ps ih => exact List.forall_mem_cons.2 ⟨h.1.spells, ih h.2⟩

/-- No token of a layout is the end. -/
theorem IsLayout.kind_ne_eof {line : Int} {column : Nat} {ps : List Piece} {tail : Bytes}
    (h : IsLayout ps tail) : ∀ t ∈ place line column ps, t.kind ≠ .eof := by
  intro t ht
  obtain ⟨p, hp, hkind, -⟩ := exists_piece_of_mem_place ht
  rw [hkind]
  exact (h.spells p hp).2

/-- The spelling of a legal lexeme is its text. -/
theorem spelling_of_ne_illegal {k : TokenKind} {s r : Bytes} (hk : k ≠ .illegal) :
    Cursor.spelling ⟨k, s, r⟩ = s :=
  if_neg hk

/-- The tokens of a text are spelled, unless they are illegal, and only the last is the end. -/
theorem exists_scan_eq (line : Int) (s : Bytes) :
    ∃ ts last, Token.scan line s = ts ++ [last] ∧ last.kind = .eof ∧
      (∀ t ∈ ts, t.kind ≠ .eof) ∧
      ∀ t ∈ ts, t.kind ≠ .illegal → Spells t.kind t.lexeme := by
  obtain ⟨ps, tail, rfl, h⟩ := exists_isLayout s
  refine ⟨_, _, scan_render h, rfl, h.kind_ne_eof, ?_⟩
  intro t ht hlegal
  obtain ⟨p, hp, hkind, hlexeme⟩ := exists_piece_of_mem_place ht
  rw [hkind] at hlegal
  rw [hkind, hlexeme, spelling_of_ne_illegal hlegal]
  exact (h.spells p hp).1

end Layout

end LineCalc
