import LineCalc.Proofs.Line.Reading
import LineCalc.Proofs.Statement.Outline
/-!
# Lines that write a statement

A statement can be written in many ways: with any spaces around its tokens, and a print with any
white space at all in its expression.  Whatever the way, reading the line gives the statement back.

* `Statement.WellFormed` : the statement is one that the grammar knows;
* `Statement.Writes` : the line writes the statement;
* `Reading.outcome_of_writes` : a line that writes a statement is read as that statement.
-/
namespace LineCalc

/-! ## Pieces of tokens -/

namespace Layout

/-- What names and numbers are written with is not blank. -/
theorem isSolid_of_isWord {b : UInt8} (h : Bytes.isWord b) : Text.isSolid b := by
  grind [Bytes.isWord, Bytes.isLetter, Bytes.isDigit, Text.isSolid, Text.isAscii,
    Text.isAsciiBlank]

/-- The characters of the language are not blank. -/
theorem isSolid_of_ofByte? {b : UInt8} {k : TokenKind} (h : TokenKind.ofByte? b = some k) :
    Text.isSolid b :=
  (by decide : ∀ p ∈ characters, Text.isSolid p.1) _ (mem_characters h)

/-- A spelled token of the language has no blank byte and is ASCII. -/
theorem isSolid_of_spells {k : TokenKind} {s : Bytes} (hk : k ≠ .illegal) (h : Spells k s) :
    ∀ b ∈ s, Text.isSolid b := by
  have hdigits : ∀ ds : Bytes, (∀ d ∈ ds, Bytes.isDigit d) → ∀ d ∈ ds, Text.isSolid d :=
    fun ds hds d hd => isSolid_of_isWord (by simp [Bytes.isWord, hds d hd])
  cases hoperand : k.isOperand with
  | false =>
      obtain ⟨b, rfl, hb⟩ := exists_byte_of_spells hoperand hk h
      intro c hc
      rw [List.mem_singleton.1 hc]
      exact isSolid_of_ofByte? hb
  | true =>
      rcases (TokenKind.isOperand_iff k).1 hoperand with rfl | rfl
      · obtain ⟨b, r, rfl, hb, hr⟩ := h
        refine List.forall_mem_cons.2 ⟨isSolid_of_isWord (by simp [Bytes.isWord, hb]), ?_⟩
        exact fun c hc => isSolid_of_isWord (hr c hc)
      · obtain ⟨b, ds, hb, hds, hs⟩ := h
        have hwhole := hdigits (b :: ds) (List.forall_mem_cons.2 ⟨hb, hds⟩)
        rcases hs with rfl | ⟨fs, hfs, rfl⟩
        · exact hwhole
        · rw [← List.cons_append]
          refine List.forall_mem_append.2 ⟨hwhole, List.forall_mem_cons.2 ⟨by decide, ?_⟩⟩
          exact hdigits fs hfs

/-- A byte that is not blank is no space. -/
theorem isSpace_of_isSolid {b : UInt8} (h : Text.isSolid b) : isSpace b = false := by
  grind [Text.isSolid, Text.isAsciiBlank, isSpace]

/-- The piece of a token behind a gap. -/
def ofToken (gap : Bytes) (t : Token) : Piece := ⟨gap, t.kind, t.lexeme⟩

/-- Placing the piece of a token gives the token at its new place. -/
theorem unplaced_token (line : Int) (column : Nat) (gap : Bytes) {t : Token}
    (ht : t.kind ≠ .illegal) : (token line column (ofToken gap t)).unplaced = t.unplaced := by
  rw [token, ofToken, spelling_of_ne_illegal ht]
  rfl

/-- Placing the pieces of tokens gives the tokens at their new places. -/
theorem map_unplaced_place {line : Int} {ts : List Token} (hts : ∀ t ∈ ts, t.kind ≠ .illegal) :
    ∀ column, (place line column (ts.map (ofToken []))).map Token.unplaced =
      ts.map Token.unplaced := by
  induction ts with
  | nil => exact fun column => rfl
  | cons t ts ih =>
      intro column
      obtain ⟨ht, hts⟩ := List.forall_mem_cons.1 hts
      rw [List.map_cons, place, List.map_cons, unplaced_token _ _ _ ht, ih hts, List.map_cons]

/-- The text of tokens without gaps. -/
theorem render_ofToken (ts : List Token) :
    render (ts.map (ofToken [])) [] = ts.flatMap Token.lexeme := by
  induction ts with
  | nil => rfl
  | cons t ts ih => rw [List.map_cons, render, ih]; rfl

/-- The piece of a spelled token is proper. -/
theorem proper_ofToken {gap : Bytes} {t : Token} (hgap : ∀ b ∈ gap, isSpace b)
    (hspells : Spells t.kind t.lexeme) (hlegal : t.kind ≠ .illegal) : Proper (ofToken gap t) :=
  ⟨hgap, hspells, hlegal⟩

/-- The type words are spelled as names. -/
theorem spells_type {s : Bytes} (h : s = utf8 "int" ∨ s = utf8 "double") : Spells .ident s := by
  rcases h with rfl | rfl
  · exact ⟨0x69, [0x6e, 0x74], by decide⟩
  · exact ⟨0x64, [0x6f, 0x75, 0x62, 0x6c, 0x65], by decide⟩

/-- How `=` is spelled. -/
theorem spells_assign : Spells .assign (utf8 "=") := ⟨0x3d, by decide⟩

/-- The sign between a name and a value is proper. -/
theorem proper_assign {gap : Bytes} (hgap : ∀ b ∈ gap, isSpace b) :
    Proper ⟨gap, .assign, utf8 "="⟩ :=
  ⟨hgap, spells_assign, by simp⟩

/-- How a semicolon is spelled. -/
theorem spells_semicolon : Spells .semicolon (utf8 ";") := ⟨0x3b, by decide⟩

/-- A semicolon is proper. -/
theorem proper_semicolon {gap : Bytes} (hgap : ∀ b ∈ gap, isSpace b) :
    Proper ⟨gap, .semicolon, utf8 ";"⟩ :=
  ⟨hgap, spells_semicolon, by simp⟩

end Layout

/-! ## Literals -/

namespace Literal

/-- The pieces of a literal behind a gap: its sign touches it. -/
def pieces (gap : Bytes) (l : Literal) : List Piece :=
  match l.sign with
  | none => [Layout.ofToken gap l.number]
  | some s => [Layout.ofToken gap s, Layout.ofToken [] l.number]

/-- The text of a literal behind a gap. -/
theorem render_pieces (gap : Bytes) (l : Literal) (qs : List Piece) (tail : Bytes) :
    Layout.render (l.pieces gap ++ qs) tail = gap ++ (l.text ++ Layout.render qs tail) := by
  obtain ⟨sign, n⟩ := l
  cases sign with
  | none => rfl
  | some s => simp [pieces, text, Layout.render, Layout.ofToken]

/-- The text of a literal is that of its tokens. -/
theorem text_eq_flatMap (l : Literal) : l.text = l.tokens.flatMap Token.lexeme := by
  obtain ⟨sign, n⟩ := l
  cases sign with
  | none => simp [text, tokens]
  | some s => simp [text, tokens]

/-- The tokens of a literal are not illegal. -/
theorem IsSigned.ne_illegal {l : Literal} (h : l.IsSigned) : ∀ t ∈ l.tokens, t.kind ≠ .illegal := by
  obtain ⟨sign, n⟩ := l
  obtain ⟨hnumber, hsign⟩ := h
  intro t ht
  rcases List.mem_append.1 ht with ht | ht
  · rcases (hsign t (Option.mem_toList.1 ht)).1 with hk | hk <;> simp [hk]
  · have hn : n.kind = .number := hnumber
    rw [List.mem_singleton.1 ht]
    simp [hn]

/-- The pieces of a spelled literal are proper. -/
theorem proper_pieces {l : Literal} {gap : Bytes} (hgap : ∀ b ∈ gap, isSpace b)
    (hsigned : l.IsSigned) (hspells : ∀ t ∈ l.tokens, Layout.Spells t.kind t.lexeme) :
    ∀ p ∈ l.pieces gap, Layout.Proper p := by
  have hproper : ∀ gap : Bytes, (∀ b ∈ gap, isSpace b) → ∀ t ∈ l.tokens,
      Layout.Proper (Layout.ofToken gap t) := fun gap hgap t ht =>
    Layout.proper_ofToken hgap (hspells t ht) (hsigned.ne_illegal t ht)
  obtain ⟨sign, n⟩ := l
  cases sign with
  | none =>
      intro p hp
      rw [List.mem_singleton.1 hp]
      exact hproper gap hgap n (by simp [tokens])
  | some s =>
      refine List.forall_mem_cons.2 ⟨hproper gap hgap s (by simp [tokens]), ?_⟩
      intro p hp
      rw [List.mem_singleton.1 hp]
      exact hproper [] (by simp) n (by simp [tokens])

/-- A literal keeps apart from what comes behind it, unless that is an operand. -/
theorem isChain_pieces {l : Literal} (gap : Bytes) (hsigned : l.IsSigned) {qs : List Piece}
    (hqs : qs.IsChain Layout.Apart) (hhead : ∀ q ∈ qs.head?, q.kind.isOperand = false) :
    (l.pieces gap ++ qs).IsChain Layout.Apart := by
  have hnumber : ∀ gap, (Layout.ofToken gap l.number :: qs).IsChain Layout.Apart := fun gap =>
    List.isChain_cons.2 ⟨fun q hq _ => .inr (hhead q hq), hqs⟩
  obtain ⟨sign, n⟩ := l
  cases sign with
  | none => exact hnumber gap
  | some s =>
      refine List.isChain_cons.2 ⟨?_, hnumber []⟩
      intro q _ hoperand
      exfalso
      rcases (hsigned.sign s rfl).1 with hk | hk <;> simp [Layout.ofToken, hk] at hoperand <;>
        cases hoperand

/-- Placing the pieces of a literal gives the literal at its new place. -/
theorem place_pieces {l : Literal} (hsigned : l.IsSigned)
    (hspells : ∀ t ∈ l.tokens, Layout.Spells t.kind t.lexeme) (line : Int) (column : Nat)
    (gap : Bytes) (qs : List Piece) :
    ∃ (l' : Literal) (column' : Nat),
      Layout.place line column (l.pieces gap ++ qs) = l'.tokens ++ Layout.place line column' qs ∧
      l'.IsSigned ∧ l'.unplaced = l.unplaced := by
  have hlegal := hsigned.ne_illegal
  obtain ⟨sign, n⟩ := l
  obtain ⟨hnumber, hsign⟩ := hsigned
  cases sign with
  | none =>
      refine ⟨⟨none, Layout.token line column (Layout.ofToken gap n)⟩, _, rfl,
        ⟨hnumber, by simp⟩, ?_⟩
      have hn := Layout.unplaced_token line column gap (hlegal n (by simp [tokens]))
      simp only [unplaced, hn, Option.map_none]
  | some s =>
      have hkind := (hsign s rfl).1
      have hlength : s.lexeme.length = 1 := by
        have hoperand : s.kind.isOperand = false := by rcases hkind with hk | hk <;> rw [hk] <;> rfl
        obtain ⟨b, hb, -⟩ := Layout.exists_byte_of_spells hoperand (hlegal s (by simp [tokens]))
          (hspells s (by simp [tokens]))
        rw [hb]
        rfl
      refine ⟨⟨some (Layout.token line column (Layout.ofToken gap s)),
        Layout.token line (column + gap.length + s.lexeme.length) (Layout.ofToken [] n)⟩, _, rfl,
        ⟨hnumber, ?_⟩, ?_⟩
      · rintro _ ⟨⟩
        refine ⟨hkind, ?_⟩
        simp [Layout.token, Layout.ofToken, hlength]
      · have hs := Layout.unplaced_token line column gap (hlegal s (by simp [tokens]))
        have hn := Layout.unplaced_token line (column + gap.length + s.lexeme.length) []
          (hlegal n (by simp [tokens]))
        simp only [unplaced, hn, hs, Option.map_some]

end Literal

/-! ## Statements in writing -/

namespace Statement

/-- The statement is one that the grammar knows. -/
def WellFormed : Statement → Prop
  | declaration t n v => t.kind = .ident ∧ (t.lexeme = utf8 "int" ∨ t.lexeme = utf8 "double") ∧
      n.kind = .ident ∧ isReserved n.lexeme = false ∧ ∀ l ∈ v, l.IsSigned
  | assignment n e => n.kind = .ident ∧ n.lexeme ≠ utf8 "int" ∧ n.lexeme ≠ utf8 "double" ∧
      IsSource e
  | print k _ _ v => k.kind = .ident ∧ k.lexeme = utf8 "print" ∧
      ∃ e, v = some e ∧ e.Shaped ∧ e.nest ≤ nestingLimit

/-- The tokens that a statement keeps, apart from the word `print`. -/
def tokens : Statement → List Token
  | declaration t n v => t :: n :: ((v.map Literal.tokens).getD [])
  | assignment n e => n :: e.tokens
  | print _ _ _ v => (v.map Expr.tokens).getD []

/-- All tokens of the statement are spelled. -/
def Spelled (s : Statement) : Prop := ∀ t ∈ s.tokens, Layout.Spells t.kind t.lexeme

/-- The expression of a print without white space. -/
def squeezed : Statement → Bytes
  | print _ _ _ v => ((v.map Expr.tokens).getD []).flatMap Token.lexeme
  | _ => []

/-- Some spaces, or none. -/
def IsGap (gap : Bytes) : Prop := ∀ b ∈ gap, isSpace b

/-- Nothing is a gap. -/
theorem isGap_nil : IsGap [] := List.forall_mem_nil _

/-- A space is a gap. -/
theorem isGap_space : IsGap (utf8 " ") := by
  unfold IsGap
  decide

/-- The initial value of a declaration in writing, with gaps around the `=`. -/
def initialText (left right : Bytes) : Option Literal → Bytes
  | none => []
  | some l => left ++ (utf8 "=" ++ (right ++ l.text))

/-- A semicolon with gaps around it. -/
def IsSemicolon (closing : Bytes) : Prop :=
  ∃ gap tail, IsGap gap ∧ IsGap tail ∧ closing = gap ++ (utf8 ";" ++ tail)

/-- A semicolon needs no gaps. -/
theorem isSemicolon_self : IsSemicolon (utf8 ";") :=
  ⟨[], [], isGap_nil, isGap_nil, rfl⟩

/-- The line writes the statement, with any gaps between its tokens. -/
def Writes : Statement → Bytes → Prop
  | declaration t n v, line => ∃ gap left right closing, IsGap gap ∧ gap ≠ [] ∧ IsGap left ∧
      IsGap right ∧ IsSemicolon closing ∧
      line = t.lexeme ++ (gap ++ (n.lexeme ++ (initialText left right v ++ closing)))
  | assignment n e, line => ∃ left right closing, IsGap left ∧ IsGap right ∧
      (IsGap closing ∨ IsSemicolon closing) ∧
      line = n.lexeme ++ (left ++ (utf8 "=" ++ (right ++ (e.code ++ closing))))
  | print k w b v, line => ∃ inner, Text.squeeze inner = (print k w b v).squeezed ∧
      line = LineKind.printOpening ++ (inner ++ LineKind.printClosing)

/-! ## Declarations -/

/-- The pieces of an initial value. -/
def initialPieces (left right : Bytes) : Option Literal → List Piece
  | none => []
  | some l => ⟨left, .assign, utf8 "="⟩ :: l.pieces right

/-- The pieces of a declaration, with a gap in front of its semicolon. -/
def declarationPieces (gap left right before : Bytes) (t n : Token) (v : Option Literal) :
    List Piece :=
  Layout.ofToken [] t :: Layout.ofToken gap n ::
    (initialPieces left right v ++ [⟨before, .semicolon, utf8 ";"⟩])

/-- The text of the pieces of a declaration. -/
theorem render_declarationPieces (gap left right before tail : Bytes) (t n : Token)
    (v : Option Literal) :
    Layout.render (declarationPieces gap left right before t n v) tail = t.lexeme ++ (gap ++
      (n.lexeme ++ (initialText left right v ++ (before ++ (utf8 ";" ++ tail))))) := by
  cases v with
  | none => rfl
  | some l =>
      have hvalue := l.render_pieces right [⟨before, .semicolon, utf8 ";"⟩] tail
      simp only [declarationPieces, initialPieces, List.cons_append, Layout.render, hvalue]
      simp [initialText, Layout.ofToken]

/-- Placing the pieces of an initial value gives that value at its new place. -/
theorem place_initialPieces {v : Option Literal} (hsigned : ∀ l ∈ v, l.IsSigned)
    (hspells : ∀ l ∈ v, ∀ t ∈ l.tokens, Layout.Spells t.kind t.lexeme) (line : Int) (column : Nat)
    (left right : Bytes) (qs : List Piece) :
    ∃ (v' : Option Literal) (init : List Token) (column' : Nat),
      Layout.place line column (initialPieces left right v ++ qs) =
        init ++ Layout.place line column' qs ∧
      Initial v' init ∧ v'.map Literal.unplaced = v.map Literal.unplaced := by
  cases v with
  | none => exact ⟨none, [], column, rfl, rfl, rfl⟩
  | some l =>
      obtain ⟨l', column', hplace, hl, hunplaced⟩ :=
        Literal.place_pieces (hsigned l rfl) (hspells l rfl) line (column + left.length + 1) right
          qs
      let assign := Layout.token line column ⟨left, .assign, utf8 "="⟩
      refine ⟨some l', assign :: l'.tokens, column', ?_, ⟨assign, rfl, rfl, hl⟩, ?_⟩
      · exact congrArg (assign :: ·) hplace
      · rw [Option.map_some, hunplaced, Option.map_some]

/-- The pieces of a well-formed declaration make a layout. -/
theorem isLayout_declarationPieces {gap left right before tail : Bytes} {t n : Token}
    {v : Option Literal} (hgap : IsGap gap) (hne : gap ≠ []) (hleft : IsGap left)
    (hright : IsGap right) (hbefore : IsGap before) (htail : IsGap tail)
    (hwf : (declaration t n v).WellFormed) (hspelled : (declaration t n v).Spelled) :
    Layout.IsLayout (declarationPieces gap left right before t n v) tail := by
  obtain ⟨ht, -, hn, -, hv⟩ := hwf
  obtain ⟨hts, hspelled⟩ := List.forall_mem_cons.1 hspelled
  obtain ⟨hns, hvs⟩ := List.forall_mem_cons.1 hspelled
  have hclosing : [(⟨before, .semicolon, utf8 ";"⟩ : Piece)].IsChain Layout.Apart := .singleton _
  refine Layout.isLayout_of_apart ?_ ?_ htail
  · refine List.forall_mem_cons.2 ⟨Layout.proper_ofToken (by simp) hts (by simp [ht]), ?_⟩
    refine List.forall_mem_cons.2 ⟨Layout.proper_ofToken hgap hns (by simp [hn]), ?_⟩
    refine List.forall_mem_append.2 ⟨?_, by simpa using Layout.proper_semicolon hbefore⟩
    cases v with
    | none => simp [initialPieces]
    | some l =>
        exact List.forall_mem_cons.2 ⟨Layout.proper_assign hleft,
          Literal.proper_pieces hright (hv l rfl) hvs⟩
  · refine List.isChain_cons.2 ⟨?_, List.isChain_cons.2 ⟨?_, ?_⟩⟩
    -- the type and the name are words both, which the gap keeps apart
    · rintro _ ⟨⟩ -
      exact .inl hne
    · cases v with
      | none =>
          rintro _ ⟨⟩ -
          exact .inr rfl
      | some l =>
          rintro _ ⟨⟩ -
          exact .inr rfl
    · cases v with
      | none => exact hclosing
      | some l =>
          refine List.isChain_cons.2 ⟨?_, Literal.isChain_pieces right (hv l rfl) hclosing ?_⟩
          · rintro q - ⟨⟩
          · rintro _ ⟨⟩
            rfl

/-! ## Assignments -/

/-- The pieces of the right side of an assignment. -/
def sourcePieces (gap : Bytes) : Expr → List Piece
  | .number l => l.pieces gap
  | e => e.tokens.map (Layout.ofToken gap)

/-- The pieces of an assignment, with the pieces that close it. -/
def assignmentPieces (left right : Bytes) (n : Token) (e : Expr) (closing : List Piece) :
    List Piece :=
  Layout.ofToken [] n :: ⟨left, .assign, utf8 "="⟩ :: (sourcePieces right e ++ closing)

/-- The pieces of an optional semicolon. -/
theorem exists_closingPieces {closing : Bytes} (h : IsGap closing ∨ IsSemicolon closing) :
    ∃ (ps : List Piece) (tail : Bytes), Layout.render ps tail = closing ∧ IsGap tail ∧
      (∀ p ∈ ps, Layout.Proper p) ∧ (ps = [] ∨ ∃ p, p.kind = .semicolon ∧ ps = [p]) := by
  rcases h with hgap | ⟨gap, tail, hgap, htail, rfl⟩
  · exact ⟨[], closing, rfl, hgap, by simp, .inl rfl⟩
  · exact ⟨[⟨gap, .semicolon, utf8 ";"⟩], tail, rfl, htail,
      by simpa using Layout.proper_semicolon hgap, .inr ⟨_, rfl, rfl⟩⟩

/-- The text of the pieces of an assignment. -/
theorem render_assignmentPieces {left right tail : Bytes} {n : Token} {e : Expr} (h : IsSource e)
    (closing : List Piece) :
    Layout.render (assignmentPieces left right n e closing) tail = n.lexeme ++ (left ++
      (utf8 "=" ++ (right ++ (e.code ++ Layout.render closing tail)))) := by
  cases h with
  | ident t ht => rfl
  | number l hl =>
      have hvalue := l.render_pieces right closing tail
      simp only [assignmentPieces, sourcePieces, Layout.render, hvalue]
      rfl

/-- Placing the pieces of a right side gives that right side at its new place. -/
theorem place_sourcePieces {e : Expr} (h : IsSource e)
    (hspells : ∀ t ∈ e.tokens, Layout.Spells t.kind t.lexeme) (line : Int) (column : Nat)
    (gap : Bytes) (qs : List Piece) :
    ∃ (e' : Expr) (column' : Nat),
      Layout.place line column (sourcePieces gap e ++ qs) =
        e'.tokens ++ Layout.place line column' qs ∧
      IsSource e' ∧ e'.unplaced = e.unplaced := by
  cases h with
  | ident t ht =>
      refine ⟨.ident (Layout.token line column (Layout.ofToken gap t)), _, rfl, .ident _ ht, ?_⟩
      exact congrArg Expr.ident (Layout.unplaced_token line column gap (by simp [ht]))
  | number l hl =>
      obtain ⟨l', column', hplace, hsigned, hunplaced⟩ :=
        Literal.place_pieces hl hspells line column gap qs
      exact ⟨.number l', column', hplace, .number l' hsigned, congrArg Expr.number hunplaced⟩

/-- The pieces of a well-formed assignment make a layout. -/
theorem isLayout_assignmentPieces {left right tail : Bytes} {n : Token} {e : Expr}
    {closing : List Piece} (hleft : IsGap left) (hright : IsGap right) (htail : IsGap tail)
    (hwf : (assignment n e).WellFormed) (hspelled : (assignment n e).Spelled)
    (hproper : ∀ p ∈ closing, Layout.Proper p)
    (hclosing : closing = [] ∨ ∃ p, p.kind = .semicolon ∧ closing = [p]) :
    Layout.IsLayout (assignmentPieces left right n e closing) tail := by
  obtain ⟨hn, -, -, hsource⟩ := hwf
  obtain ⟨hns, hspells⟩ := List.forall_mem_cons.1 hspelled
  obtain ⟨hchain, hhead⟩ : closing.IsChain Layout.Apart ∧
      ∀ q ∈ closing.head?, q.kind.isOperand = false := by
    rcases hclosing with rfl | ⟨p, hp, rfl⟩
    · exact ⟨.nil, by simp⟩
    · exact ⟨.singleton _, by simp [hp, TokenKind.isOperand]⟩
  refine Layout.isLayout_of_apart ?_ ?_ htail
  · refine List.forall_mem_cons.2 ⟨Layout.proper_ofToken (by simp) hns (by simp [hn]), ?_⟩
    refine List.forall_mem_cons.2 ⟨Layout.proper_assign hleft, ?_⟩
    refine List.forall_mem_append.2 ⟨?_, hproper⟩
    cases hsource with
    | ident t ht =>
        intro p hp
        rw [List.mem_singleton.1 hp]
        exact Layout.proper_ofToken hright (hspells t (by simp [Expr.tokens])) (by simp [ht])
    | number l hl => exact Literal.proper_pieces hright hl hspells
  · refine List.isChain_cons.2 ⟨?_, List.isChain_cons.2 ⟨?_, ?_⟩⟩
    · rintro _ ⟨⟩ -
      exact .inr rfl
    · rintro q - ⟨⟩
    · cases hsource with
      | ident t ht => exact List.isChain_cons.2 ⟨fun q hq _ => .inr (hhead q hq), hchain⟩
      | number l hl => exact Literal.isChain_pieces right hl hchain hhead

end Statement

/-! ## Prints -/

namespace Expr

/-- The tokens of a shaped tree are operands and operators. -/
theorem Shaped.kind_of_mem {e : Expr} (h : e.Shaped) :
    ∀ t ∈ e.tokens, t.kind.isOperand ∨ t.kind.isOperator := by
  induction e with
  | number l =>
      obtain ⟨hsign, hnumber⟩ := h
      simp [tokens, hsign, hnumber, TokenKind.isOperand]
  | ident t =>
      have ht : t.kind = .ident := h
      simp [tokens, ht, TokenKind.isOperand]
  | unary t e ih =>
      obtain ⟨ht, -, he⟩ := h
      refine List.forall_mem_cons.2 ⟨.inr ?_, ih he⟩
      rcases ht with ht | ht <;> rw [ht] <;> rfl
  | binary t l r ihl ihr =>
      obtain ⟨hpos, -, -, hl, hr⟩ := (shaped_binary_iff t l r).1 h
      refine List.forall_mem_append.2 ⟨ihl hl, List.forall_mem_cons.2 ⟨.inr ?_, ihr hr⟩⟩
      exact (precedence_pos_iff t.kind).1 hpos

/-- The tokens of a shaped tree are not illegal. -/
theorem Shaped.ne_illegal {e : Expr} (h : e.Shaped) : ∀ t ∈ e.tokens, t.kind ≠ .illegal := by
  intro t ht hkind
  have := h.kind_of_mem t ht
  simp [hkind, TokenKind.isOperand, TokenKind.isOperator] at this

/-- No two operands of a shaped tree are neighbours. -/
theorem Shaped.isChain_pieces {e : Expr} (h : e.Shaped) :
    (e.tokens.map (Layout.ofToken [])).IsChain Layout.Apart := by
  induction e with
  | number l =>
      obtain ⟨hsign, -⟩ := h
      simp [tokens, hsign]
  | ident t => exact .singleton _
  | unary t e ih =>
      obtain ⟨ht, -, he⟩ := h
      refine List.isChain_cons.2 ⟨?_, ih he⟩
      intro q _ hoperand
      have hoperand : t.kind.isOperand := hoperand
      rcases ht with ht | ht <;> rw [ht] at hoperand <;> cases hoperand
  | binary t l r ihl ihr =>
      obtain ⟨hpos, -, -, hl, hr⟩ := (shaped_binary_iff t l r).1 h
      have hoperator : t.kind.isOperand = false := by
        cases hk : t.kind <;> simp_all [TokenKind.precedence, TokenKind.isOperand]
      rw [tokens, List.map_append, List.map_cons]
      refine List.isChain_append.2 ⟨ihl hl, List.isChain_cons.2 ⟨?_, ihr hr⟩, ?_⟩
      · intro q _ hoperand
        exact absurd hoperand (by simp [Layout.ofToken, hoperator])
      · rintro p - _ ⟨⟩ -
        exact .inr hoperator

/-- The tokens of a spelled shaped tree make a layout without gaps. -/
theorem Shaped.isLayout {e : Expr} (h : e.Shaped)
    (hspells : ∀ t ∈ e.tokens, Layout.Spells t.kind t.lexeme) :
    Layout.IsLayout (e.tokens.map (Layout.ofToken [])) [] := by
  refine Layout.isLayout_of_apart ?_ h.isChain_pieces (by simp)
  intro p hp
  obtain ⟨t, ht, rfl⟩ := List.mem_map.1 hp
  exact Layout.proper_ofToken (by simp) (hspells t ht) (h.ne_illegal t ht)

end Expr

/-! ## Reading what is written -/

namespace Reading

/-- What starts a line breaks off in front of a gap and a character other than a bracket. -/
theorem head?_gap_append {gap : Bytes} {b : UInt8} {rest : Bytes} (hgap : Statement.IsGap gap)
    (hb : Bytes.isWord b = false ∧ b ≠ 0x28) :
    ∀ c ∈ (gap ++ b :: rest).head?, Bytes.isWord c = false ∧ c ≠ 0x28 := by
  cases gap with
  | nil =>
      rintro _ ⟨⟩
      exact hb
  | cons a gap =>
      rintro _ ⟨⟩
      have ha := hgap a List.mem_cons_self
      refine ⟨(Layout.breaks_of_isSpace ha).1, ?_⟩
      rintro rfl
      cases ha

/-- A line that writes a declaration is one. -/
theorem ofLine_declaration {t n : Token} {v : Option Literal} {line : Bytes}
    (hwf : (Statement.declaration t n v).WellFormed)
    (hwrites : (Statement.declaration t n v).Writes line) :
    LineKind.ofLine line = .declaration := by
  obtain ⟨gap, left, right, closing, hgap, hne, -, -, -, rfl⟩ := hwrites
  obtain ⟨-, hword, -⟩ := hwf
  have hall : ∀ b ∈ t.lexeme, Bytes.isWord b := by
    rcases hword with h | h <;> rw [h] <;> decide
  obtain ⟨c, gap, rfl⟩ := List.exists_cons_of_ne_nil hne
  have hc := hgap c List.mem_cons_self
  rw [LineKind.ofLine_append hall, if_pos hword]
  rintro _ ⟨⟩
  refine ⟨(Layout.breaks_of_isSpace hc).1, ?_⟩
  rintro rfl
  cases hc

/-- A line that writes a declaration is read as it. -/
theorem outcome_of_declaration {t n : Token} {v : Option Literal} {line : Bytes} (number : Int)
    (hwf : (Statement.declaration t n v).WellFormed)
    (hspelled : (Statement.declaration t n v).Spelled)
    (hwrites : (Statement.declaration t n v).Writes line) :
    ∃ s', (ofLine false number line).outcome = .ok s' ∧
      s'.outline = (Statement.declaration t n v).outline ∧ s'.body = [] ∧
      s'.token.line = number := by
  have hkind := ofLine_declaration hwf hwrites
  obtain ⟨gap, left, right, _, hgap, hne, hleft, hright, ⟨before, tail, hbefore, htail, rfl⟩,
    hline⟩ := hwrites
  have hlayout :=
    Statement.isLayout_declarationPieces hgap hne hleft hright hbefore htail hwf hspelled
  rw [← Statement.render_declarationPieces] at hline
  have hunits : units false number .declaration line [] = _ := units_of_isLayout hlayout hline
  obtain ⟨ht, hword, hn, hfree, hv⟩ := hwf
  have hvalue : ∀ l ∈ v, ∀ u ∈ l.tokens, Layout.Spells u.kind u.lexeme := by
    rintro l rfl u hu
    exact hspelled u (by simp [Statement.tokens, hu])
  -- the tokens of the line: the type, the name, the initial value and the semicolon
  let t' := Layout.token number 1 (Layout.ofToken [] t)
  let n' := Layout.token number (1 + t.lexeme.length) (Layout.ofToken gap n)
  have ht' : t'.unplaced = t.unplaced := Layout.unplaced_token _ _ _ (by simp [ht])
  have hn' : n'.unplaced = n.unplaced := Layout.unplaced_token _ _ _ (by simp [hn])
  obtain ⟨v', init, column, hplace, hinit, hv'⟩ := Statement.place_initialPieces hv hvalue number
    (1 + t.lexeme.length + gap.length + n.lexeme.length) left right
    [⟨before, .semicolon, utf8 ";"⟩]
  refine ⟨.declaration t' n' v', ?_, ?_, rfl, rfl⟩
  · rw [outcome_eq_ok_iff, hkind]
    refine ⟨t', n', v', rfl, ht, ?_, hn, ?_, init,
      Layout.token number column ⟨before, .semicolon, utf8 ";"⟩, hinit, rfl, ?_⟩
    · rwa [(Token.unplaced_inj.1 ht').2]
    · rwa [(Token.unplaced_inj.1 hn').2]
    · rw [hunits]
      exact congrArg (t' :: n' :: ·) hplace
  · rw [Statement.outline, ht', hn', hv']
    rfl

/-- A line that writes an assignment is one. -/
theorem ofLine_assignment {n : Token} {e : Expr} {line : Bytes}
    (hwf : (Statement.assignment n e).WellFormed) (hspelled : (Statement.assignment n e).Spelled)
    (hwrites : (Statement.assignment n e).Writes line) :
    LineKind.ofLine line = .assignment := by
  obtain ⟨left, right, closing, hleft, -, -, rfl⟩ := hwrites
  obtain ⟨hn, hint, hdouble, -⟩ := hwf
  have hspells := hspelled n List.mem_cons_self
  rw [hn] at hspells
  obtain ⟨b, r, hlexeme, hb, hr⟩ := hspells
  have hall : ∀ b ∈ n.lexeme, Bytes.isWord b := by
    rw [hlexeme]
    exact List.forall_mem_cons.2 ⟨by simp [Bytes.isWord, hb], hr⟩
  rw [LineKind.ofLine_append hall, if_neg (not_or.2 ⟨hint, hdouble⟩)]
  exact head?_gap_append hleft (by decide)

/-- A line that writes an assignment is read as it. -/
theorem outcome_of_assignment {n : Token} {e : Expr} {line : Bytes} (number : Int)
    (hwf : (Statement.assignment n e).WellFormed) (hspelled : (Statement.assignment n e).Spelled)
    (hwrites : (Statement.assignment n e).Writes line) :
    ∃ s', (ofLine false number line).outcome = .ok s' ∧
      s'.outline = (Statement.assignment n e).outline ∧ s'.body = [] ∧
      s'.token.line = number := by
  have hkind := ofLine_assignment hwf hspelled hwrites
  obtain ⟨left, right, closing, hleft, hright, hclosing, hline⟩ := hwrites
  obtain ⟨ps, tail, rfl, htail, hproper, hps⟩ := Statement.exists_closingPieces hclosing
  have hlayout :=
    Statement.isLayout_assignmentPieces hleft hright htail hwf hspelled hproper hps
  obtain ⟨hn, -, -, hsource⟩ := hwf
  rw [← Statement.render_assignmentPieces hsource] at hline
  have hunits : units false number .assignment line [] = _ := units_of_isLayout hlayout hline
  have hspells := (List.forall_mem_cons.1 hspelled).2
  -- the tokens of the line: the name, the sign, the right side and perhaps a semicolon
  let n' := Layout.token number 1 (Layout.ofToken [] n)
  let a' := Layout.token number (1 + n.lexeme.length) ⟨left, .assign, utf8 "="⟩
  have hn' : n'.unplaced = n.unplaced := Layout.unplaced_token _ _ _ (by simp [hn])
  obtain ⟨e', column, hplace, hsource', he'⟩ := Statement.place_sourcePieces hsource hspells number
    (1 + n.lexeme.length + left.length + 1) right ps
  refine ⟨.assignment n' e', ?_, ?_, rfl, rfl⟩
  · rw [outcome_eq_ok_iff, hkind]
    refine ⟨n', e', rfl, hn, hsource', a', Layout.place number column ps, rfl, ?_, ?_⟩
    · rcases hps with rfl | ⟨p, hp, rfl⟩
      · exact .inl rfl
      · exact .inr ⟨Layout.token number column p, hp, rfl⟩
    · rw [hunits]
      exact congrArg (n' :: a' :: ·) hplace
  · rw [Statement.outline, hn', he']
    rfl

/-- A line that writes a print is read as it. -/
theorem outcome_of_print {k : Token} {w b : Bytes} {v : Option Expr} {line : Bytes} (number : Int)
    (hwf : (Statement.print k w b v).WellFormed) (hspelled : (Statement.print k w b v).Spelled)
    (hwrites : (Statement.print k w b v).Writes line) :
    ∃ s', (ofLine false number line).outcome = .ok s' ∧
      s'.outline = (Statement.print k w b v).outline ∧
      s'.body = (Statement.print k w b v).squeezed ∧ s'.token.line = number := by
  obtain ⟨inner, hinner, hline⟩ := hwrites
  obtain ⟨hk, hword, e, rfl, hshaped, hnest⟩ := hwf
  have hkind : LineKind.ofLine line = .print := by
    rw [hline, LineKind.ofLine_printOpening_append]
  have hbody : LineKind.printBody? line = some (e.tokens.flatMap Token.lexeme) :=
    LineKind.printBody?_eq_some_iff.2 ⟨inner, hline, hinner⟩
  have hlayout := hshaped.isLayout hspelled
  have hunits : units false number .print line (e.tokens.flatMap Token.lexeme) = _ :=
    units_of_isLayout hlayout (Layout.render_ofToken e.tokens).symm
  obtain ⟨e', htree, he'⟩ := Expr.IsTreeOf.exists_of_tokens ⟨rfl, hshaped, hnest⟩
    (Layout.map_unplaced_place hshaped.ne_illegal 1)
  refine ⟨.printing number line (e.tokens.flatMap Token.lexeme) e', ?_, ?_, rfl, rfl⟩
  · rw [outcome_eq_ok_iff, hkind]
    refine ⟨_, e', hbody, rfl, ?_⟩
    rwa [hunits]
  · rw [Statement.printing, Statement.outline, Statement.outline, Option.map_some, Option.map_some,
      he', Token.unplaced_inj.2 ⟨hk.symm, hword.symm⟩]

/-- **What is written is read.**  A line that writes a well-formed statement is read as that
statement, at the places where its tokens stand in the line. -/
theorem outcome_of_writes {s : Statement} {line : Bytes} (number : Int) (hwf : s.WellFormed)
    (hspelled : s.Spelled) (hwrites : s.Writes line) :
    ∃ s', (ofLine false number line).outcome = .ok s' ∧ s'.outline = s.outline ∧
      s'.body = s.squeezed ∧ s'.token.line = number := by
  cases s with
  | declaration t n v => exact outcome_of_declaration number hwf hspelled hwrites
  | assignment n e => exact outcome_of_assignment number hwf hspelled hwrites
  | print k w b v => exact outcome_of_print number hwf hspelled hwrites

end Reading

end LineCalc
