import LineCalc.Proofs.Statement.Grammar
/-!
# Statements without places

What a statement says, apart from where its tokens stand and from the texts that a print keeps.

* `Expr.exists_of_tokens` : a tree can be moved to other places, token by token;
* `Statement.code_eq_of_outline` : the code of a statement hangs on its outline only;
* `Statement.tree_eq_of_outline` : the tree hangs on the outline and the text of the expression.
-/
namespace LineCalc

/-! ## Tokens and literals -/

/-- The token without its place. -/
def Token.unplaced (t : Token) : Token := ⟨t.kind, t.lexeme, 0, 0⟩

/-- Two tokens without their places are one if their kinds and lexemes are. -/
theorem Token.unplaced_inj {t u : Token} :
    t.unplaced = u.unplaced ↔ t.kind = u.kind ∧ t.lexeme = u.lexeme := by
  simp [Token.unplaced]

namespace Literal

/-- The literal without the places of its tokens. -/
def unplaced (l : Literal) : Literal := ⟨l.sign.map Token.unplaced, l.number.unplaced⟩

/-- The text of a literal is the same at every place. -/
theorem text_unplaced (l : Literal) : l.unplaced.text = l.text := by
  obtain ⟨sign, n⟩ := l
  cases sign with
  | none => rfl
  | some s => rfl

/-- The tokens of a literal lose their places. -/
theorem tokens_unplaced (l : Literal) : l.unplaced.tokens = l.tokens.map Token.unplaced := by
  obtain ⟨sign, n⟩ := l
  cases sign with
  | none => rfl
  | some s => rfl

/-- A literal can be moved to other places. -/
theorem exists_of_tokens (l : Literal) {ts : List Token}
    (h : ts.map Token.unplaced = l.tokens.map Token.unplaced) :
    ∃ l' : Literal, l'.tokens = ts ∧ l'.unplaced = l.unplaced := by
  obtain ⟨sign, n⟩ := l
  cases sign with
  | none =>
      obtain ⟨n', rfl, hn⟩ := List.map_eq_singleton_iff.1 h
      refine ⟨⟨none, n'⟩, rfl, ?_⟩
      simp only [unplaced, hn, Option.map_none]
  | some s =>
      obtain ⟨s', ts', rfl, hs, hts⟩ := List.map_eq_cons_iff.1 h
      obtain ⟨n', rfl, hn⟩ := List.map_eq_singleton_iff.1 hts
      refine ⟨⟨some s', n'⟩, rfl, ?_⟩
      simp only [unplaced, hn, hs, Option.map_some]

end Literal

/-! ## Expressions -/

namespace Expr

/-- The tree without the places of its tokens. -/
def unplaced : Expr → Expr
  | number l => number l.unplaced
  | ident t => ident t.unplaced
  | unary t e => unary t.unplaced e.unplaced
  | binary t l r => binary t.unplaced l.unplaced r.unplaced

/-- The tokens of a tree lose their places. -/
theorem tokens_unplaced (e : Expr) : e.unplaced.tokens = e.tokens.map Token.unplaced := by
  induction e with
  | number l => exact l.tokens_unplaced
  | ident t => rfl
  | unary t e ih => rw [unplaced, tokens, ih]; rfl
  | binary t l r ihl ihr => rw [unplaced, tokens, ihl, ihr, tokens, List.map_append]; rfl

/-- The code of a tree is the same at every place. -/
theorem code_unplaced (e : Expr) : e.unplaced.code = e.code := by
  induction e with
  | number l => exact l.text_unplaced
  | ident t => rfl
  | unary t e ih => rw [unplaced, code, ih]; rfl
  | binary t l r ihl ihr => rw [unplaced, code, ihl, ihr]; rfl

/-- The lines of a tree are the same at every place. -/
theorem treeRows_unplaced (e : Expr) : ∀ depth, e.unplaced.treeRows depth = e.treeRows depth := by
  induction e with
  | number l =>
      intro depth
      rw [unplaced, treeRows, l.text_unplaced]
      rfl
  | ident t => exact fun depth => rfl
  | unary t e ih =>
      intro depth
      rw [unplaced, treeRows, ih]
      rfl
  | binary t l r ihl ihr =>
      intro depth
      rw [unplaced, treeRows, ihl, ihr]
      rfl

/-- Trees are nested as deep at every place. -/
theorem nest_unplaced (e : Expr) : e.unplaced.nest = e.nest := by
  induction e with
  | number l => rfl
  | ident t => rfl
  | unary t e ih => rw [unplaced, nest, ih]; rfl
  | binary t l r ihl ihr => rw [unplaced, nest, ihl, ihr]; rfl

/-- Whether the root is binary hangs on no place. -/
theorem isBinary_unplaced (e : Expr) : e.unplaced.isBinary = e.isBinary := by
  cases e <;> rfl

/-- Whether the root is a sum hangs on no place. -/
theorem isSum_unplaced (e : Expr) : e.unplaced.isSum = e.isSum := by
  cases e <;> rfl

/-- Trees are shaped alike at every place. -/
theorem shaped_unplaced (e : Expr) : e.unplaced.Shaped ↔ e.Shaped := by
  induction e with
  | number l => simp [unplaced, Shaped, Literal.unplaced, Token.unplaced]
  | ident t => rfl
  | unary t e ih => rw [unplaced, Shaped, ih, isBinary_unplaced]; rfl
  | binary t l r ihl ihr =>
      rw [unplaced, Shaped, ihl, ihr, isSum_unplaced, isSum_unplaced, isBinary_unplaced]
      rfl

/-- A tree can be moved to other places, token by token. -/
theorem exists_of_tokens (e : Expr) :
    ∀ {ts : List Token}, ts.map Token.unplaced = e.tokens.map Token.unplaced →
      ∃ e' : Expr, e'.tokens = ts ∧ e'.unplaced = e.unplaced := by
  induction e with
  | number l =>
      intro ts h
      obtain ⟨l', htokens, hl⟩ := l.exists_of_tokens h
      exact ⟨number l', htokens, by rw [unplaced, unplaced, hl]⟩
  | ident t =>
      intro ts h
      obtain ⟨t', rfl, ht⟩ := List.map_eq_singleton_iff.1 h
      exact ⟨ident t', rfl, by rw [unplaced, unplaced, ht]⟩
  | unary t e ih =>
      intro ts h
      obtain ⟨t', ts', rfl, ht, hts⟩ := List.map_eq_cons_iff.1 h
      obtain ⟨e', rfl, he⟩ := ih hts
      exact ⟨unary t' e', rfl, by rw [unplaced, unplaced, ht, he]⟩
  | binary t l r ihl ihr =>
      intro ts h
      rw [tokens, List.map_append] at h
      obtain ⟨ts₁, ts₂, rfl, h₁, h₂⟩ := List.map_eq_append_iff.1 h
      obtain ⟨t', ts₃, rfl, ht, h₃⟩ := List.map_eq_cons_iff.1 h₂
      obtain ⟨l', rfl, hl⟩ := ihl h₁
      obtain ⟨r', rfl, hr⟩ := ihr h₃
      exact ⟨binary t' l' r', rfl, by rw [unplaced, unplaced, ht, hl, hr]⟩

/-- The tree of tokens moves with them. -/
theorem IsTreeOf.exists_of_tokens {e : Expr} {ts ts' : List Token} (h : e.IsTreeOf ts)
    (hts : ts'.map Token.unplaced = ts.map Token.unplaced) :
    ∃ e' : Expr, e'.IsTreeOf ts' ∧ e'.unplaced = e.unplaced := by
  obtain ⟨rfl, hshaped, hnest⟩ := h
  obtain ⟨e', htokens, he⟩ := e.exists_of_tokens hts
  refine ⟨e', ⟨htokens, ?_, ?_⟩, he⟩
  · rwa [← shaped_unplaced, he, shaped_unplaced]
  · rwa [← nest_unplaced, he, nest_unplaced]

end Expr

/-! ## Statements -/

namespace Statement

/-- The statement without the places of its tokens and without the texts that a print keeps. -/
def outline : Statement → Statement
  | declaration t n v => declaration t.unplaced n.unplaced (v.map Literal.unplaced)
  | assignment n v => assignment n.unplaced v.unplaced
  | print k _ _ v => print k.unplaced [] [] (v.map Expr.unplaced)

/-- The text of the expression that a print keeps. -/
def body : Statement → Bytes
  | print _ _ body _ => body
  | _ => []

/-- The code of a statement is that of its outline. -/
theorem code_outline (s : Statement) : s.outline.code = s.code := by
  cases s with
  | declaration t n v =>
      cases v with
      | none => rfl
      | some l =>
          rw [outline, Option.map_some, code, l.text_unplaced]
          rfl
  | assignment n e =>
      rw [outline, code, e.code_unplaced]
      rfl
  | print k line body v =>
      cases v with
      | none => rfl
      | some e =>
          rw [outline, Option.map_some, code, Option.map_some, e.code_unplaced]
          rfl

/-- The lines of the tree of a statement, from its outline and the text of its expression. -/
theorem treeRows_outline (s : Statement) :
    s.treeRows = match s.outline with
      | print k line _ v => (print k line s.body v).treeRows
      | s' => s'.treeRows := by
  cases s with
  | declaration t n v =>
      cases v with
      | none => rfl
      | some l => exact congrArg (_ :: _ :: ·) (Expr.treeRows_unplaced (.number l) 1).symm
  | assignment n e => exact congrArg (_ :: _ :: ·) (e.treeRows_unplaced 1).symm
  | print k line body v =>
      cases v with
      | none => rfl
      | some e => exact congrArg (_ :: ·) (e.treeRows_unplaced 1).symm

/-- Statements with one outline have one code. -/
theorem code_eq_of_outline {s s' : Statement} (h : s'.outline = s.outline) : s'.code = s.code := by
  rw [← code_outline, h, code_outline]

/-- Statements with one outline and one text of their expression have one tree. -/
theorem tree_eq_of_outline {s s' : Statement} (h : s'.outline = s.outline)
    (hbody : s'.body = s.body) : s'.tree = s.tree := by
  rw [tree, tree, treeRows_outline s', treeRows_outline s, h, hbody]

end Statement

end LineCalc
