import LineCalc.Proofs.Line.Writing
import LineCalc.Proofs.Text.Parts
/-!
# The lines of a tree

The printed tree of an expression has no brackets, but every line names its node, and so how many
nodes stand below it.

* `Expr.TreeRow.IsPlain`, `Expr.lines_injective` : plain lines are told by their text;
* `Expr.Kinded` : the tokens of a tree are of the kinds that its nodes ask for;
* `Expr.treeRows_append_inj` : an expression is told by its lines but for the places of its tokens,
  whatever lines stand behind them;
* `Expr.isPlain_treeRows` : the lines of a tree are plain.
-/
namespace LineCalc

/-! ## Tokens by their text -/

namespace Layout

/-- What is spelled has no line breaks. -/
theorem Spells.ne_newline {k : TokenKind} {s : Bytes} (h : Spells k s) : ∀ b ∈ s, b ≠ 0x0a := by
  rintro b hb rfl
  by_cases hk : k = .illegal
  · subst hk
    obtain ⟨c, rfl, hspace, -⟩ := h
    rw [← List.mem_singleton.1 hb] at hspace
    cases hspace
  · have := isSolid_of_spells hk h _ hb
    exact absurd this (by decide)

end Layout

namespace Token

/-- The four operators are no operands. -/
theorem isOperand_of_isOperator {k : TokenKind} (h : k.isOperator) : k.isOperand = false := by
  cases k <;> first | rfl | cases h

/-- An operator is spelled by its own character. -/
theorem exists_byte_of_isOperator {t : Token} (h : t.kind.isOperator)
    (hspells : Layout.Spells t.kind t.lexeme) :
    ∃ b, t.lexeme = [b] ∧ TokenKind.ofByte? b = some t.kind := by
  refine Layout.exists_byte_of_spells (isOperand_of_isOperator h) ?_ hspells
  intro hkind
  rw [hkind] at h
  cases h

/-- Operators are told by their text. -/
theorem unplaced_eq_of_isOperator {t u : Token} (ht : t.kind.isOperator) (hu : u.kind.isOperator)
    (hts : Layout.Spells t.kind t.lexeme) (hus : Layout.Spells u.kind u.lexeme)
    (h : t.lexeme = u.lexeme) : t.unplaced = u.unplaced := by
  obtain ⟨b, hb, hbyte⟩ := exists_byte_of_isOperator ht hts
  obtain ⟨c, hc, hbyte'⟩ := exists_byte_of_isOperator hu hus
  obtain rfl : b = c := List.head_eq_of_cons_eq (hb.symm.trans (h.trans hc))
  exact unplaced_inj.2 ⟨Option.some.inj (hbyte.symm.trans hbyte'), h⟩

end Token

namespace Literal

/-- A sign is an operator. -/
theorem IsSigned.isOperator {l : Literal} (h : l.IsSigned) : ∀ s ∈ l.sign, s.kind.isOperator := by
  intro s hs
  rcases (h.sign s hs).1 with hkind | hkind <;> rw [hkind] <;> rfl

/-- A sign in front of a literal is told from the digit that a number starts with. -/
theorem sign_append_ne {s n : Token} {r : Bytes} (hs : s.kind.isOperator) (hn : n.kind = .number)
    (hss : Layout.Spells s.kind s.lexeme) (hns : Layout.Spells n.kind n.lexeme) :
    s.lexeme ++ r ≠ n.lexeme := by
  obtain ⟨b, hb, hbyte⟩ := Token.exists_byte_of_isOperator hs hss
  rw [hn] at hns
  obtain ⟨d, ds, hd, -, hnumber⟩ := hns
  rw [hb]
  intro h
  obtain rfl : b = d := by
    rcases hnumber with hnumber | ⟨fs, -, hnumber⟩
    · exact List.head_eq_of_cons_eq (h.trans hnumber)
    · exact List.head_eq_of_cons_eq (h.trans hnumber)
  have hbreak := (Layout.breaks_of_ofByte? hbyte).1
  simp [Bytes.isWord, hd] at hbreak

/-- Literals are told by their texts. -/
theorem unplaced_eq_of_text {l l' : Literal} (hl : l.IsSigned) (hl' : l'.IsSigned)
    (hs : ∀ t ∈ l.tokens, Layout.Spells t.kind t.lexeme)
    (hs' : ∀ t ∈ l'.tokens, Layout.Spells t.kind t.lexeme) (h : l.text = l'.text) :
    l.unplaced = l'.unplaced := by
  obtain ⟨sign, n⟩ := l
  obtain ⟨sign', n'⟩ := l'
  have hns : Layout.Spells n.kind n.lexeme := hs n (by simp [tokens])
  have hns' : Layout.Spells n'.kind n'.lexeme := hs' n' (by simp [tokens])
  have hn : n.kind = .number := hl.number
  have hn' : n'.kind = .number := hl'.number
  cases sign with
  | none =>
      cases sign' with
      | none =>
          have hnumber : n.unplaced = n'.unplaced :=
            Token.unplaced_inj.2 ⟨hn.trans hn'.symm, h⟩
          simp only [unplaced, hnumber, Option.map_none]
      | some s' =>
          exact absurd h.symm
            (sign_append_ne (hl'.isOperator s' rfl) hn (hs' s' (by simp [tokens])) hns)
  | some s =>
      have hsign := hl.isOperator s rfl
      have hss : Layout.Spells s.kind s.lexeme := hs s (by simp [tokens])
      cases sign' with
      | none => exact absurd h (sign_append_ne hsign hn' hss hns')
      | some s' =>
          have hsign' := hl'.isOperator s' rfl
          have hss' : Layout.Spells s'.kind s'.lexeme := hs' s' (by simp [tokens])
          obtain ⟨b, hb, -⟩ := Token.exists_byte_of_isOperator hsign hss
          obtain ⟨b', hb', -⟩ := Token.exists_byte_of_isOperator hsign' hss'
          have hlength : s.lexeme.length = s'.lexeme.length := by rw [hb, hb']; rfl
          obtain ⟨hlexeme, hdigits⟩ := List.append_inj h hlength
          have hfirst := Token.unplaced_eq_of_isOperator hsign hsign' hss hss' hlexeme
          have hnumber : n.unplaced = n'.unplaced :=
            Token.unplaced_inj.2 ⟨hn.trans hn'.symm, hdigits⟩
          simp only [unplaced, hfirst, hnumber, Option.map_some]

end Literal

namespace Expr

/-! ## Texts of lines -/

/-- The text of a line starts with no space and has no line break. -/
structure TreeRow.IsPlain (r : TreeRow) : Prop where
  head : r.text.head? ≠ some 0x20
  newline : ∀ b ∈ r.text, b ≠ 0x0a

/-- The spaces in front of a plain line end where its text starts. -/
theorem TreeRow.IsPlain.span_line {r : TreeRow} (h : r.IsPlain) (s : Bytes) :
    (r.line ++ s).takeWhile (· == 0x20) = List.replicate (2 * r.depth) 0x20 ∧
      (r.line ++ s).dropWhile (· == 0x20) = r.text ++ 0x0a :: s := by
  have hcut : r.line ++ s = List.replicate (2 * r.depth) 0x20 ++ (r.text ++ 0x0a :: s) := by
    simp [line]
  rw [hcut]
  refine Layout.span_append (fun b hb => beq_iff_eq.2 (List.eq_of_mem_replicate hb)) ?_
  intro b hb
  cases htext : r.text with
  | nil =>
      rw [htext] at hb
      obtain rfl : (0x0a : UInt8) = b := Option.some.inj hb
      decide
  | cons c cs =>
      have hhead := h.head
      rw [htext] at hb hhead
      obtain rfl : c = b := Option.some.inj hb
      simpa using hhead

/-- A plain line is told by its text, whatever stands behind it. -/
theorem TreeRow.line_append_inj {r r' : TreeRow} {s s' : Bytes} (hr : r.IsPlain) (hr' : r'.IsPlain)
    (h : r.line ++ s = r'.line ++ s') : r = r' := by
  obtain ⟨htake, hdrop⟩ := hr.span_line s
  obtain ⟨htake', hdrop'⟩ := hr'.span_line s'
  rw [h] at htake hdrop
  -- the depth is told by the spaces in front, and the text ends at the line break
  have hdepth := congrArg List.length (htake.symm.trans htake')
  rw [List.length_replicate, List.length_replicate] at hdepth
  obtain ⟨htext, -⟩ := Bytes.append_cons_inj hr.newline hr'.newline (hdrop.symm.trans hdrop')
  obtain ⟨depth, text⟩ := r
  obtain ⟨depth', text'⟩ := r'
  simp only at hdepth htext
  rw [htext, show depth = depth' by omega]

/-- Plain lines are told by their texts in a row. -/
theorem lines_injective {rs rs' : List TreeRow} (hrs : ∀ r ∈ rs, r.IsPlain)
    (hrs' : ∀ r ∈ rs', r.IsPlain) (h : rs.flatMap TreeRow.line = rs'.flatMap TreeRow.line) :
    rs = rs' := by
  refine eq_of_flatMap_eq ?_ (fun r r' s s' hr hr' => TreeRow.line_append_inj hr hr') hrs hrs' h
  intro r _
  simp [TreeRow.line]

/-- What stands behind a plain label may hold anything but line breaks. -/
theorem TreeRow.isPlain_append {depth : Nat} {u x : Bytes} (hne : u ≠ [])
    (hu : TreeRow.IsPlain ⟨depth, u⟩) (hx : ∀ b ∈ x, b ≠ 0x0a) :
    TreeRow.IsPlain ⟨depth, u ++ x⟩ := by
  refine ⟨?_, List.forall_mem_append.2 ⟨hu.newline, hx⟩⟩
  rw [List.head?_append_of_ne_nil u hne]
  exact hu.head

/-! ## Nodes -/

/-- The tokens of the tree are of the kinds that its nodes ask for. -/
def Kinded : Expr → Prop
  | number l => l.IsSigned
  | ident t => t.kind = .ident
  | unary t e => t.kind.isOperator ∧ e.Kinded
  | binary t l r => t.kind.isOperator ∧ l.Kinded ∧ r.Kinded

/-- What the line of a node starts with. -/
def label : Expr → Bytes
  | number _ => utf8 "NumberLiteral "
  | ident _ => utf8 "Identifier "
  | unary .. => utf8 "PrefixExpression "
  | binary .. => utf8 "InfixExpression "

/-- What the line of a node shows of its tokens. -/
def shown : Expr → Bytes
  | number l => l.text
  | ident t => t.lexeme
  | unary t _ => t.lexeme
  | binary t _ _ => t.lexeme

/-- The lines of the nodes below the root. -/
def rowsBelow (depth : Nat) : Expr → List TreeRow
  | number _ => []
  | ident _ => []
  | unary _ e => e.treeRows (depth + 1)
  | binary _ l r => l.treeRows (depth + 1) ++ r.treeRows (depth + 1)

/-- The lines of a tree: that of its root, and those of the nodes below it. -/
theorem treeRows_eq_cons (depth : Nat) (e : Expr) :
    e.treeRows depth = ⟨depth, e.label ++ e.shown⟩ :: e.rowsBelow depth := by
  cases e <;> rfl

/-- The labels of the nodes. -/
def labels : List Bytes :=
  [utf8 "NumberLiteral ", utf8 "Identifier ", utf8 "PrefixExpression ", utf8 "InfixExpression "]

/-- Every node has one of the labels. -/
theorem label_mem_labels (e : Expr) : e.label ∈ labels := by
  cases e <;> simp [label, labels]

/-- The roots of both trees are nodes of one kind. -/
inductive Alike : Expr → Expr → Prop
  | number (l l' : Literal) : Alike (.number l) (.number l')
  | ident (t t' : Token) : Alike (.ident t) (.ident t')
  | unary (t t' : Token) (e e' : Expr) : Alike (.unary t e) (.unary t' e')
  | binary (t t' : Token) (l l' r r' : Expr) : Alike (.binary t l r) (.binary t' l' r')

/-- Nodes with one label are of one kind. -/
theorem alike_of_label {e e' : Expr} (h : e.label = e'.label) : Alike e e' := by
  cases e <;> cases e' <;> first
    | constructor
    | simp only [label] at h
      exact absurd h (by decide)

/-- The line of the root shows of which kind it is and what its tokens are. -/
theorem root_inj {e e' : Expr} {depth depth' : Nat} {rs rs' : List TreeRow}
    (h : e.treeRows depth ++ rs = e'.treeRows depth' ++ rs') :
    Alike e e' ∧ e.shown = e'.shown ∧ e.rowsBelow depth ++ rs = e'.rowsBelow depth' ++ rs' := by
  rw [treeRows_eq_cons, treeRows_eq_cons, List.cons_append, List.cons_append] at h
  obtain ⟨hrow, hbelow⟩ := List.cons.inj h
  obtain ⟨hlabel, hshown⟩ := Bytes.label_append_inj
    (by decide : ∀ u ∈ labels, ∀ v ∈ labels, u <+: v → u = v) e.label_mem_labels
    e'.label_mem_labels (congrArg TreeRow.text hrow)
  exact ⟨alike_of_label hlabel, hshown, hbelow⟩

/-- **An expression is told by its lines**, whatever lines stand behind them, but for the places of
its tokens. -/
theorem treeRows_append_inj {e e' : Expr} {depth depth' : Nat} {rs rs' : List TreeRow}
    (he : e.Kinded) (he' : e'.Kinded) (hs : ∀ t ∈ e.tokens, Layout.Spells t.kind t.lexeme)
    (hs' : ∀ t ∈ e'.tokens, Layout.Spells t.kind t.lexeme)
    (h : e.treeRows depth ++ rs = e'.treeRows depth' ++ rs') :
    e.unplaced = e'.unplaced ∧ rs = rs' := by
  induction e generalizing e' depth depth' rs rs' with
  | number l =>
      obtain ⟨halike, htext, hrest⟩ := root_inj h
      cases halike with
      | number _ l' =>
          exact ⟨congrArg number (Literal.unplaced_eq_of_text he he' hs hs' htext), hrest⟩
  | ident t =>
      obtain ⟨halike, hname, hrest⟩ := root_inj h
      cases halike with
      | ident _ t' =>
          have ht : t.kind = .ident := he
          have ht' : t'.kind = .ident := he'
          exact ⟨congrArg ident (Token.unplaced_inj.2 ⟨ht.trans ht'.symm, hname⟩), hrest⟩
  | unary t e ih =>
      obtain ⟨halike, hop, hrest⟩ := root_inj h
      cases halike with
      | unary _ t' _ e' =>
          obtain ⟨ht, he⟩ := he
          obtain ⟨ht', he'⟩ := he'
          obtain ⟨hts, hes⟩ := List.forall_mem_cons.1 hs
          obtain ⟨hts', hes'⟩ := List.forall_mem_cons.1 hs'
          obtain ⟨hoperand, hrest⟩ := ih he he' hes hes' hrest
          have hroot := Token.unplaced_eq_of_isOperator ht ht' hts hts' hop
          exact ⟨congrArg₂ unary hroot hoperand, hrest⟩
  | binary t l r ihl ihr =>
      obtain ⟨halike, hop, hrest⟩ := root_inj h
      cases halike with
      | binary _ t' _ l' _ r' =>
          obtain ⟨ht, hl, hr⟩ := he
          obtain ⟨ht', hl', hr'⟩ := he'
          obtain ⟨hls, hs⟩ := List.forall_mem_append.1 hs
          obtain ⟨hls', hs'⟩ := List.forall_mem_append.1 hs'
          obtain ⟨hts, hrs⟩ := List.forall_mem_cons.1 hs
          obtain ⟨hts', hrs'⟩ := List.forall_mem_cons.1 hs'
          -- the lines of the left operand end where those of the right one start
          rw [rowsBelow, rowsBelow, List.append_assoc, List.append_assoc] at hrest
          obtain ⟨hleft, hrest⟩ := ihl hl hl' hls hls' hrest
          obtain ⟨hright, hrest⟩ := ihr hr hr' hrs hrs' hrest
          have hroot := Token.unplaced_eq_of_isOperator ht ht' hts hts' hop
          refine ⟨?_, hrest⟩
          rw [unplaced, unplaced, hroot, hleft, hright]

/-! ## Plain lines -/

/-- What the line of a node shows stands in tokens of the tree. -/
theorem exists_mem_tokens_of_mem_shown {e : Expr} {b : UInt8} (h : b ∈ e.shown) :
    ∃ t ∈ e.tokens, b ∈ t.lexeme := by
  cases e with
  | number l =>
      rw [shown, l.text_eq_flatMap] at h
      exact List.mem_flatMap.1 h
  | ident t => exact ⟨t, List.mem_singleton_self t, h⟩
  | unary t e => exact ⟨t, List.mem_cons_self, h⟩
  | binary t l r => exact ⟨t, List.mem_append_right _ List.mem_cons_self, h⟩

/-- The line of a node is plain if its tokens have no line breaks. -/
theorem isPlain_root {e : Expr} (h : ∀ t ∈ e.tokens, ∀ b ∈ t.lexeme, b ≠ 0x0a) (depth : Nat) :
    TreeRow.IsPlain ⟨depth, e.label ++ e.shown⟩ := by
  have hlabel : ∀ u ∈ labels, u ≠ [] ∧ u.head? ≠ some 0x20 ∧ ∀ b ∈ u, b ≠ 0x0a := by
    decide
  obtain ⟨hne, hhead, hnewline⟩ := hlabel _ e.label_mem_labels
  refine TreeRow.isPlain_append hne ⟨hhead, hnewline⟩ ?_
  intro b hb
  obtain ⟨t, ht, hb⟩ := exists_mem_tokens_of_mem_shown hb
  exact h t ht b hb

/-- The lines of a tree are plain if its tokens have no line breaks. -/
theorem isPlain_treeRows {e : Expr} (h : ∀ t ∈ e.tokens, ∀ b ∈ t.lexeme, b ≠ 0x0a) :
    ∀ depth, ∀ r ∈ e.treeRows depth, r.IsPlain := by
  induction e with
  | number l => exact fun depth => List.forall_mem_singleton.2 (isPlain_root h depth)
  | ident t => exact fun depth => List.forall_mem_singleton.2 (isPlain_root h depth)
  | unary t e ih =>
      obtain ⟨-, he⟩ := List.forall_mem_cons.1 h
      exact fun depth => List.forall_mem_cons.2 ⟨isPlain_root h depth, ih he (depth + 1)⟩
  | binary t l r ihl ihr =>
      obtain ⟨hl, htr⟩ := List.forall_mem_append.1 h
      obtain ⟨-, hr⟩ := List.forall_mem_cons.1 htr
      exact fun depth => List.forall_mem_cons.2 ⟨isPlain_root h depth,
        List.forall_mem_append.2 ⟨ihl hl (depth + 1), ihr hr (depth + 1)⟩⟩

/-! ## Trees of the grammar -/

/-- The tokens of a shaped tree are of the kinds that its nodes ask for. -/
theorem Shaped.kinded {e : Expr} (h : e.Shaped) : e.Kinded := by
  induction e with
  | number l =>
      obtain ⟨hsign, hnumber⟩ := h
      exact ⟨hnumber, by simp [hsign]⟩
  | ident t => exact h
  | unary t e ih =>
      obtain ⟨ht, -, he⟩ := h
      refine ⟨?_, ih he⟩
      rcases ht with ht | ht <;> rw [ht] <;> rfl
  | binary t l r ihl ihr =>
      obtain ⟨hpos, -, -, hl, hr⟩ := (shaped_binary_iff t l r).1 h
      exact ⟨(precedence_pos_iff t.kind).1 hpos, ihl hl, ihr hr⟩

end Expr

/-- The tokens of a right side are of the kinds that its node asks for. -/
theorem Statement.IsSource.kinded {e : Expr} (h : IsSource e) : e.Kinded := by
  cases h with
  | ident t ht => exact ht
  | number l hl => exact hl

end LineCalc
