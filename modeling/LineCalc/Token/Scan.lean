import LineCalc.Token.Basic
/-!
# Scanning

A line is cut into names, numbers, single characters that mean something and single bytes that do
not.  Spaces, tabs, carriage returns and line feeds between them are skipped.  A number may end in
a point.
-/
namespace LineCalc

/-- The bytes skipped between tokens. -/
def isSpace (b : UInt8) : Bool := b == 0x20 || b == 0x09 || b == 0x0d || b == 0x0a

/-! ## One lexeme -/

/-- A kind, the bytes of one token, and the bytes after it. -/
structure Lexeme where
  kind : TokenKind
  text : Bytes
  rest : Bytes

namespace Lexeme

/-- The number at the front of a text: digits, and a point with the digits after it. -/
def number (s : Bytes) : Lexeme :=
  match s.dropWhile Bytes.isDigit with
  | 0x2e :: r =>
    ⟨.number, s.takeWhile Bytes.isDigit ++ 0x2e :: r.takeWhile Bytes.isDigit,
      r.dropWhile Bytes.isDigit⟩
  | r => ⟨.number, s.takeWhile Bytes.isDigit, r⟩

/-- The longest lexeme at the front of the text `b :: r`. -/
def first (b : UInt8) (r : Bytes) : Lexeme :=
  if Bytes.isLetter b then ⟨.ident, b :: r.takeWhile Bytes.isWord, r.dropWhile Bytes.isWord⟩
  else if Bytes.isDigit b then number (b :: r)
  else ⟨(TokenKind.ofByte? b).getD .illegal, [b], r⟩

/-- A number and the rest are the text. -/
theorem number_append (s : Bytes) : (number s).text ++ (number s).rest = s := by
  unfold number
  split
  · next r h =>
    simp only [List.append_assoc, List.cons_append, List.takeWhile_append_dropWhile]
    rw [← h, List.takeWhile_append_dropWhile]
  · simp

/-- A lexeme and the rest are the text. -/
theorem first_append (b : UInt8) (r : Bytes) : (first b r).text ++ (first b r).rest = b :: r := by
  unfold first
  split
  · simp
  · split
    · exact number_append _
    · simp

/-- A lexeme has at least one byte. -/
theorem first_rest_length_le (b : UInt8) (r : Bytes) : (first b r).rest.length ≤ r.length := by
  have hd (p : UInt8 → Bool) (l : Bytes) : (l.dropWhile p).length ≤ l.length :=
    (List.dropWhile_sublist p).length_le
  unfold first
  split
  · exact hd _ _
  · split
    · next h =>
      unfold number
      rw [List.dropWhile_cons_of_pos h]
      split
      · next r' h' =>
        have h₁ := hd Bytes.isDigit r
        have h₂ := hd Bytes.isDigit r'
        rw [h', List.length_cons] at h₁
        exact Nat.le_trans h₂ (Nat.le_of_succ_le h₁)
      · exact hd _ _
    · simp

end Lexeme

/-! ## A whole text -/

/-- A place in a text: the bytes still to be read, and where the first of them stands. -/
structure Cursor where
  line : Int
  column : Nat
  rest : Bytes

namespace Cursor

/-- The cursor after the spaces in front of it. -/
def skip (c : Cursor) : Cursor :=
  { c with column := c.column + (c.rest.takeWhile isSpace).length
           rest := c.rest.dropWhile isSpace }

/-- The spelling of a lexeme in a token.  An illegal byte is spelled as the character of its
number. -/
def spelling (l : Lexeme) : Bytes :=
  if l.kind = .illegal then l.text.flatMap fun b => String.utf8EncodeChar (Char.ofNat b.toNat)
  else l.text

/-- The next token and the cursor after it.  At the end of the text this is the end token, again
and again. -/
def next (c : Cursor) : Token × Cursor :=
  match c.skip.rest with
  | [] => (⟨.eof, [], c.line, c.skip.column⟩, c.skip)
  | b :: r =>
    let l := Lexeme.first b r
    (⟨l.kind, spelling l, c.line, c.skip.column⟩,
      ⟨c.line, c.skip.column + l.text.length, l.rest⟩)

/-- A token that is not the end uses up bytes. -/
theorem next_rest_length_lt (c : Cursor) (h : c.next.1.kind ≠ .eof) :
    c.next.2.rest.length < c.rest.length := by
  have hs : c.skip.rest.length ≤ c.rest.length := (List.dropWhile_sublist _).length_le
  unfold next at h ⊢
  split
  · simp_all
  · next b r hr =>
    have := Lexeme.first_rest_length_le b r
    simp only [hr, List.length_cons] at hs
    show (Lexeme.first b r).rest.length < _
    omega

/-- All tokens from the cursor on; the last one is the end. -/
def tokens (c : Cursor) : List Token :=
  if _h : c.next.1.kind = .eof then [c.next.1] else c.next.1 :: tokens c.next.2
termination_by c.rest.length
decreasing_by exact next_rest_length_lt c (by assumption)

end Cursor

/-- The tokens of a text that stands on the given line. -/
def Token.scan (line : Int) (s : Bytes) : List Token := Cursor.tokens ⟨line, 1, s⟩

/-- The tokens that an expression may hold: operands and operators, and the end. -/
def Token.keepRecognized (ts : List Token) : List Token :=
  ts.filter fun t => t.kind.isOperand || t.kind.isOperator || t.kind == .eof

end LineCalc
