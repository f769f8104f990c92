import LineCalc.Proofs.Sampler.Draw
import LineCalc.Proofs.Statement.Validity
import Mathlib.Data.List.Nodup
/-!
# The statements that are drawn

Every statement that is drawn is written on a line of its own, is valid with the variables declared
so far, and the sampler then knows just the variables that were declared.

* `Sampler.Drawn` : what a drawn text stands for;
* `Sampler.statement_draws` : every drawn statement is such a text.
-/
namespace LineCalc.Sampler

variable {ds : List (Bytes × Kind)}

/-! ## Texts of a line -/

/-- The text fits on a line, and trimming leaves it: it has no blanks but spaces, and none at its
ends. -/
structure Tidy (s : Bytes) : Prop where
  ne_nil : s ≠ []
  plain : ∀ b ∈ s, Text.isSolid b ∨ b = 0x20
  first : ∀ b ∈ s.head?, Text.isSolid b
  last : ∀ b ∈ s.getLast?, Text.isSolid b

/-- A text of solid ends is tidy, whatever spaces are between them. -/
theorem tidy_append {a m z : Bytes} (ha : ∀ b ∈ a, Text.isSolid b) (hane : a ≠ [])
    (hm : ∀ b ∈ m, Text.isSolid b ∨ b = 0x20) (hz : ∀ b ∈ z, Text.isSolid b) (hzne : z ≠ []) :
    Tidy (a ++ (m ++ z)) := by
  refine ⟨List.append_ne_nil_of_left_ne_nil hane _, ?_, ?_, ?_⟩
  · refine List.forall_mem_append.2 ⟨fun b hb => .inl (ha b hb), ?_⟩
    exact List.forall_mem_append.2 ⟨hm, fun b hb => .inl (hz b hb)⟩
  · obtain ⟨c, a, rfl⟩ := List.exists_cons_of_ne_nil hane
    rintro b ⟨⟩
    exact ha c List.mem_cons_self
  · intro b hb
    rw [← List.append_assoc, List.getLast?_append, List.getLast?_eq_some_getLast hzne] at hb
    obtain rfl := Option.some.inj hb
    exact hz _ (List.getLast_mem hzne)

/-- A drawn gap is a gap. -/
theorem isGap_of_gap {s : Bytes} (h : s = [] ∨ s = utf8 " ") : Statement.IsGap s := by
  rcases h with rfl | rfl
  · exact Statement.isGap_nil
  · exact Statement.isGap_space

/-- A drawn gap is plain. -/
theorem plain_of_gap {s : Bytes} (h : s = [] ∨ s = utf8 " ") :
    ∀ b ∈ s, Text.isSolid b ∨ b = 0x20 := by
  rcases h with rfl | rfl
  · exact fun b hb => absurd hb (by simp)
  · decide

/-- A drawn gap has at most one byte. -/
theorem length_of_gap {s : Bytes} (h : s = [] ∨ s = utf8 " ") : s.length ≤ 1 := by
  rcases h with rfl | rfl <;> decide

/-! ## Variables -/

/-- The variables have different names, all among those that may be declared. -/
structure Sound (ds : List (Bytes × Kind)) : Prop where
  names : ∀ p ∈ ds, p.1 ∈ names
  nodup : (ds.map Prod.fst).Nodup

/-- The variables as a relation between names and kinds. -/
def Knows (ds : List (Bytes × Kind)) (name : Bytes) (k : Kind) : Prop := (name, k) ∈ ds

/-- A variable has one kind. -/
theorem Sound.kind_unique (h : Sound ds) {name : Bytes} {k k' : Kind} (hk : Knows ds name k)
    (hk' : Knows ds name k') : k' = k := by
  have := List.inj_on_of_nodup_map h.nodup hk' hk rfl
  exact congrArg Prod.snd this

/-- The names that may be declared are spelled and not reserved. -/
theorem name_spec {name : Bytes} (h : name ∈ names) :
    Layout.Spells .ident name ∧ isReserved name = false ∧ name.length ≤ 2 := by
  have hall : ∀ n ∈ names, (n.head?.any Bytes.isLetter && n.tail.all Bytes.isWord) = true ∧
      isReserved n = false ∧ n.length ≤ 2 := by
    decide
  obtain ⟨hletters, hfree, hlength⟩ := hall name h
  refine ⟨?_, hfree, hlength⟩
  cases name with
  | nil => cases hletters
  | cons b r =>
      simp only [List.head?_cons, Option.any_some, List.tail_cons, Bool.and_eq_true,
        List.all_eq_true] at hletters
      exact ⟨b, r, rfl, hletters.1, hletters.2⟩

/-- The token of a name, at no place. -/
def word (name : Bytes) : Token := ⟨.ident, name, 0, 0⟩

/-- The kind of a name is the one it has, or is from now on its kind. -/
theorem kindOf_draws (h : Sound ds) {name : Bytes} (hname : name ∈ names) :
    Draws ds (kindOf name) fun k ds' => Sound ds' ∧ (∀ k', Knows ds name k' → k' = k) ∧
      ∀ n k', Knows ds' n k' ↔ Knows ds n k' ∨ name = n ∧ k = k' := by
  refine Draws.get fun g hg => ?_
  rw [hg]
  cases hlookup : ds.lookup name with
  | some k =>
      -- a known name keeps its kind, and declaring it again adds nothing
      obtain ⟨l₁, l₂, hds, -⟩ := List.lookup_eq_some_iff.1 hlookup
      have hknows : Knows ds name k := by
        rw [Knows, hds]
        simp
      refine .pure ⟨h, fun k' hk' => h.kind_unique hknows hk', ?_⟩
      intro n k'
      constructor
      · exact .inl
      · rintro (hn | ⟨rfl, rfl⟩)
        · exact hn
        · exact hknows
  | none =>
      have hnew : ∀ p ∈ ds, p.1 ≠ name := by
        intro p hp heq
        have := List.lookup_eq_none_iff.1 hlookup p hp
        simp [heq] at this
      refine (oneIn_yields 2).bind fun b _ => ?_
      generalize (if b = true then Kind.double else Kind.int) = k
      rintro g rfl
      show Sound (g.declared ++ [(name, k)]) ∧ (∀ k', Knows g.declared name k' → k' = k) ∧
        ∀ n k', Knows (g.declared ++ [(name, k)]) n k' ↔
          Knows g.declared n k' ∨ name = n ∧ k = k'
      refine ⟨⟨?_, ?_⟩, ?_, ?_⟩
      · refine List.forall_mem_append.2 ⟨h.names, ?_⟩
        intro p hp
        rwa [List.mem_singleton.1 hp]
      · rw [List.map_append, List.nodup_append]
        refine ⟨h.nodup, by simp, ?_⟩
        intro a ha c hc hac
        obtain ⟨p, hp, rfl⟩ := List.mem_map.1 ha
        obtain rfl : c = name := by simpa using hc
        exact hnew p hp hac
      · intro k' hk'
        exact absurd rfl (hnew _ hk')
      · intro n k'
        simp [Knows, eq_comm (a := n), eq_comm (a := k')]

/-- What a drawn text stands for: a line that writes a valid statement, after which the sampler
knows what the statement declares. -/
structure Drawn (ds : List (Bytes × Kind)) (text : Bytes) (ds' : List (Bytes × Kind))
    (s : Statement) : Prop where
  wellFormed : s.WellFormed
  spelled : s.Spelled
  writes : s.Writes text
  valid : s.Valid (Knows ds)
  knows : ∀ n k, Knows ds' n k ↔ Knows ds n k ∨ s.declares n k
  sound : Sound ds'
  tidy : Tidy text
  length_le : text.length ≤ 100

/-! ## Declarations and assignments -/

/-- The text of a literal is solid and not empty. -/
theorem IsLiteral.isSolid {k : Kind} {s : Bytes} {l : Literal} (h : IsLiteral k s l) :
    (∀ b ∈ s, Text.isSolid b) ∧ s ≠ [] := by
  obtain ⟨rfl, hsigned, hspells, -⟩ := h
  have hsolid : ∀ t ∈ l.tokens, ∀ b ∈ t.lexeme, Text.isSolid b := fun t ht =>
    Layout.isSolid_of_spells (hsigned.ne_illegal t ht) (hspells t ht)
  have hne : l.number.lexeme ≠ [] := by
    have := hspells l.number (by simp [Literal.tokens])
    rw [hsigned.number] at this
    obtain ⟨b, ds, -, -, hs | ⟨fs, -, hs⟩⟩ := this <;> simp [hs]
  obtain ⟨sign, n⟩ := l
  cases sign with
  | none => exact ⟨hsolid n (by simp [Literal.tokens]), hne⟩
  | some t =>
      refine ⟨List.forall_mem_append.2 ⟨hsolid t ?_, hsolid n ?_⟩, ?_⟩
      · simp [Literal.tokens]
      · simp [Literal.tokens]
      · exact List.append_ne_nil_of_right_ne_nil _ hne

/-- The word of a type. -/
theorem kind_text_spec (k : Kind) : Layout.Spells .ident k.text ∧
    (k.text = utf8 "int" ∨ k.text = utf8 "double") ∧ Kind.ofText? k.text = some k ∧
      k.text.length ≤ 6 := by
  cases k with
  | int => exact ⟨Layout.spells_type (.inl rfl), .inl rfl, by decide, by decide⟩
  | double => exact ⟨Layout.spells_type (.inr rfl), .inr rfl, by decide, by decide⟩

/-- A name is solid and not empty. -/
theorem isSolid_of_ident {name : Bytes} (h : Layout.Spells .ident name) :
    (∀ b ∈ name, Text.isSolid b) ∧ name ≠ [] := by
  refine ⟨Layout.isSolid_of_spells (by simp) h, ?_⟩
  obtain ⟨b, r, rfl, -⟩ := h
  simp

/-- The initial value of a drawn declaration is plain and short. -/
theorem initialText_spec {k : Kind} {left right : Bytes} {v : Option Literal}
    (hleft : left = [] ∨ left = utf8 " ") (hright : right = [] ∨ right = utf8 " ")
    (hv : ∀ l ∈ v, IsLiteral k l.text l ∧ l.text.length ≤ 10) :
    (∀ b ∈ Statement.initialText left right v, Text.isSolid b ∨ b = 0x20) ∧
      (Statement.initialText left right v).length ≤ 13 := by
  cases v with
  | none => exact ⟨fun b hb => absurd hb (by simp [Statement.initialText]), Nat.zero_le _⟩
  | some l =>
      obtain ⟨hl, hlength⟩ := hv l rfl
      have hassign : ∀ b ∈ utf8 "=", Text.isSolid b ∨ b = 0x20 := by decide
      have hone : (utf8 "=").length = 1 := by decide
      have hleftLength := length_of_gap hleft
      have hrightLength := length_of_gap hright
      constructor
      · refine List.forall_mem_append.2 ⟨plain_of_gap hleft, ?_⟩
        refine List.forall_mem_append.2 ⟨hassign, ?_⟩
        refine List.forall_mem_append.2 ⟨plain_of_gap hright, ?_⟩
        exact fun b hb => .inl (hl.isSolid.1 b hb)
      · simp only [Statement.initialText, List.length_append]
        omega

/-- A declaration of a name with its kind is a drawn text. -/
theorem drawn_declaration {ds' : List (Bytes × Kind)} {name : Bytes} {k : Kind}
    {left right : Bytes} {v : Option Literal} (hname : name ∈ names)
    (hkind : ∀ k', Knows ds name k' → k' = k) (hsound : Sound ds')
    (hknows : ∀ n k', Knows ds' n k' ↔ Knows ds n k' ∨ name = n ∧ k = k')
    (hleft : left = [] ∨ left = utf8 " ") (hright : right = [] ∨ right = utf8 " ")
    (hv : ∀ l ∈ v, IsLiteral k l.text l ∧ l.text.length ≤ 10) :
    Drawn ds (k.text ++ (utf8 " " ++ (name ++ (Statement.initialText left right v ++ utf8 ";"))))
      ds' (.declaration (word k.text) (word name) v) := by
  obtain ⟨hnspells, hfree, hnlength⟩ := name_spec hname
  obtain ⟨hkspells, hword, hof, hklength⟩ := kind_text_spec k
  obtain ⟨hksolid, hkne⟩ := isSolid_of_ident hkspells
  obtain ⟨hnsolid, -⟩ := isSolid_of_ident hnspells
  obtain ⟨hinitial, hilength⟩ := initialText_spec hleft hright hv
  constructor
  · exact ⟨rfl, hword, rfl, hfree, fun l hl => (hv l hl).1.signed⟩
  · refine List.forall_mem_cons.2 ⟨hkspells, List.forall_mem_cons.2 ⟨hnspells, ?_⟩⟩
    cases v with
    | none => simp
    | some l => exact (hv l rfl).1.spells
  · exact ⟨utf8 " ", left, right, utf8 ";", isGap_of_gap (.inr rfl), by decide,
      isGap_of_gap hleft, isGap_of_gap hright, Statement.isSemicolon_self, rfl⟩
  · exact ⟨k, hof, hkind, fun l hl => (hv l hl).1.reads⟩
  · intro n k'
    have hdeclares : (Statement.declaration (word k.text) (word name) v).declares n k' ↔
        name = n ∧ k = k' := by
      show name = n ∧ Kind.ofText? k.text = some k' ↔ _
      rw [hof, Option.some.injEq]
    rw [hknows, hdeclares]
  · exact hsound
  · have hmiddle : ∀ b ∈ utf8 " " ++ (name ++ Statement.initialText left right v),
        Text.isSolid b ∨ b = 0x20 := by
      refine List.forall_mem_append.2 ⟨plain_of_gap (.inr rfl), ?_⟩
      exact List.forall_mem_append.2 ⟨fun b hb => .inl (hnsolid b hb), hinitial⟩
    have htidy := tidy_append hksolid hkne hmiddle (by decide : ∀ b ∈ utf8 ";", Text.isSolid b)
      (by decide)
    simpa only [List.append_assoc] using htidy
  · have hspace : (utf8 " ").length = 1 := by decide
    have hclosing : (utf8 ";").length = 1 := by decide
    simp only [List.length_append]
    omega

/-- A drawn declaration. -/
theorem declaration_draws (h : Sound ds) :
    Draws ds declaration fun text ds' => ∃ s, Drawn ds text ds' s := by
  refine (pick_yields (utf8 "x") (by decide)).bind fun name hname => ?_
  refine (kindOf_draws h hname).bind ?_
  rintro k ds' ⟨hsound, hkind, hknows⟩
  refine (oneIn_yields 3).bind fun b _ => ?_
  cases b with
  | true =>
      have hdrawn := drawn_declaration (v := none) hname hkind hsound hknows (.inl rfl) (.inl rfl)
        (by simp)
      refine .pure ⟨.declaration (word k.text) (word name) none, ?_⟩
      simpa only [Statement.initialText, List.nil_append, List.append_assoc] using hdrawn
  | false =>
      refine gap_yields.bind fun left hleft => gap_yields.bind fun right hright => ?_
      refine (signed_yields k).bind ?_
      rintro text ⟨hlength, l, hl⟩
      have htext := hl.text
      subst htext
      have hdrawn := drawn_declaration (v := some l) hname hkind hsound hknows hleft hright
        (by rintro _ ⟨⟩; exact ⟨hl, hlength⟩)
      refine .pure ⟨.declaration (word k.text) (word name) (some l), ?_⟩
      simpa only [Statement.initialText, List.append_assoc] using hdrawn

/-- The text writes a right side that can be assigned to a variable of the kind. -/
structure IsRight (ds : List (Bytes × Kind)) (k : Kind) (text : Bytes) (e : Expr) : Prop where
  code : e.code = text
  source : Statement.IsSource e
  spells : ∀ t ∈ e.tokens, Layout.Spells t.kind t.lexeme
  valid : Statement.SourceValid (Knows ds) k e
  isSolid : (∀ b ∈ text, Text.isSolid b) ∧ text ≠ []
  length_le : text.length ≤ 10

/-- The name of a variable of the kind can be assigned. -/
theorem isRight_name (h : Sound ds) {k : Kind} {name : Bytes} (hname : Knows ds name k) :
    IsRight ds k name (.ident (word name)) := by
  obtain ⟨hspells, -, hlength⟩ := name_spec (h.names _ hname)
  refine ⟨rfl, .ident _ rfl, ?_, hname, isSolid_of_ident hspells, le_trans hlength (by decide)⟩
  intro t ht
  rw [List.mem_singleton.1 ht]
  exact hspells

/-- A literal of the kind can be assigned. -/
theorem isRight_literal {k : Kind} {text : Bytes} {l : Literal} (hl : IsLiteral k text l)
    (hlength : text.length ≤ 10) : IsRight ds k text (.number l) :=
  ⟨hl.text, .number l hl.signed, hl.spells, hl.reads, hl.isSolid, hlength⟩

/-- An assignment to a variable of a right side of its kind is a drawn text. -/
theorem drawn_assignment (h : Sound ds) {target : Bytes} {k : Kind} {left right value : Bytes}
    {e : Expr} {closing : Bytes} (htarget : Knows ds target k) (he : IsRight ds k value e)
    (hleft : left = [] ∨ left = utf8 " ") (hright : right = [] ∨ right = utf8 " ")
    (hclosing : closing = [] ∨ closing = utf8 ";") :
    Drawn ds (target ++ (left ++ (utf8 "=" ++ (right ++ (value ++ closing))))) ds
      (.assignment (word target) e) := by
  have hname : target ∈ names := h.names _ htarget
  obtain ⟨hspells, hfree, hlength⟩ := name_spec hname
  obtain ⟨hsolid, hne⟩ := isSolid_of_ident hspells
  obtain ⟨hvalue, hvne⟩ := he.isSolid
  have hclosed : (∀ b ∈ closing, Text.isSolid b) ∧ closing.length ≤ 1 := by
    rcases hclosing with rfl | rfl <;> decide
  have hassign : ∀ b ∈ utf8 "=", Text.isSolid b ∨ b = 0x20 := by decide
  have hone : (utf8 "=").length = 1 := by decide
  simp only [isReserved, Bool.or_eq_false_iff, beq_eq_false_iff_ne] at hfree
  constructor
  · exact ⟨rfl, hfree.1.1, hfree.1.2, he.source⟩
  · exact List.forall_mem_cons.2 ⟨hspells, he.spells⟩
  · have hwritten : Statement.IsGap closing ∨ Statement.IsSemicolon closing := by
      rcases hclosing with rfl | rfl
      · exact .inl (isGap_of_gap (.inl rfl))
      · exact .inr Statement.isSemicolon_self
    refine ⟨left, right, closing, isGap_of_gap hleft, isGap_of_gap hright, hwritten, ?_⟩
    rw [he.code]
    rfl
  · exact ⟨k, htarget, he.valid⟩
  · simp [Statement.declares]
  · exact h
  · have hmiddle : ∀ b ∈ left ++ (utf8 "=" ++ right), Text.isSolid b ∨ b = 0x20 :=
      List.forall_mem_append.2 ⟨plain_of_gap hleft,
        List.forall_mem_append.2 ⟨hassign, plain_of_gap hright⟩⟩
    have htidy := tidy_append hsolid hne hmiddle (List.forall_mem_append.2 ⟨hvalue, hclosed.1⟩)
      (List.append_ne_nil_of_left_ne_nil hvne closing)
    simpa only [List.append_assoc] using htidy
  · have hvlength := he.length_le
    have hllength := length_of_gap hleft
    have hrlength := length_of_gap hright
    simp only [List.length_append]
    omega

/-- A drawn assignment. -/
theorem assignment_draws (h : Sound ds) (hne : ds ≠ []) :
    Draws ds assignment fun text ds' => ∃ s, Drawn ds text ds' s := by
  refine Draws.get fun g hg => ?_
  subst hg
  refine (pick_yields _ hne).bind ?_
  rintro ⟨target, k⟩ htarget
  refine (oneIn_yields 2).bind fun b _ => ?_
  extract_lets jp
  have hjp : ∀ value e, IsRight g.declared k value e →
      Draws g.declared (jp value) fun text ds' => ∃ s, Drawn g.declared text ds' s := by
    intro value e he
    refine (oneIn_yields 4).bind fun c _ => gap_yields.bind fun left hleft =>
      gap_yields.bind fun right hright => .pure ⟨.assignment (word target) e, ?_⟩
    have hclosing : (if c = true then [] else utf8 ";") = [] ∨
        (if c = true then [] else utf8 ";") = utf8 ";" := by
      cases c
      · exact .inr rfl
      · exact .inl rfl
    have hdrawn := drawn_assignment h htarget he hleft hright hclosing
    simpa only [List.append_assoc] using hdrawn
  cases b with
  | true =>
      have hmember : target ∈ (g.declared.filter (·.2 == k)).map (·.1) :=
        List.mem_map.2 ⟨(target, k), List.mem_filter.2 ⟨htarget, by simp⟩, rfl⟩
      refine (pick_yields target (List.ne_nil_of_mem hmember)).bind fun name hname => ?_
      obtain ⟨⟨name, k'⟩, hfilter, rfl⟩ := List.mem_map.1 hname
      obtain ⟨hknows, hk⟩ := List.mem_filter.1 hfilter
      obtain rfl : k' = k := by simpa using hk
      exact hjp _ _ (isRight_name h hknows)
  | false =>
      refine (signed_yields k).bind ?_
      rintro text ⟨hlength, l, hl⟩
      exact hjp _ _ (isRight_literal hl hlength)

/-! ## Prints -/

/-- An operand that can be printed: it is spelled, valid, and has at most one sign. -/
structure IsTerm (ds : List (Bytes × Kind)) (e : Expr) : Prop where
  operand : e.IsOperand 2
  spells : ∀ t ∈ e.tokens, Layout.Spells t.kind t.lexeme
  valid : e.Valid (Knows ds)

/-- The text writes a chain of operands and operators. -/
structure IsChain (ds : List (Bytes × Kind)) (text : Bytes) (first : Expr)
    (more : List (Token × Expr)) : Prop where
  head : IsTerm ds first
  tail : ∀ p ∈ more, (p.1.kind.isOperator ∧ Layout.Spells p.1.kind p.1.lexeme) ∧ IsTerm ds p.2
  squeezes : Text.Squeezes text
    ((first.tokens ++ more.flatMap fun p => p.1 :: p.2.tokens).flatMap Token.lexeme)
  plain : ∀ b ∈ text, Text.isSolid b ∨ b = 0x20

/-- A single token that is a valid operand, with a minus before it or without. -/
theorem isChain_leaf {minus : Bytes} {t : Token} (hminus : minus = utf8 "-" ∨ minus = [])
    (ht : t.kind.isOperand) (hspells : Layout.Spells t.kind t.lexeme)
    (hvalid : (Expr.leaf t).Valid (Knows ds)) :
    ∃ e, IsChain ds (minus ++ t.lexeme) e [] := by
  have hsolid : ∀ b ∈ t.lexeme, Text.isSolid b := by
    refine Layout.isSolid_of_spells ?_ hspells
    rcases (TokenKind.isOperand_iff t.kind).1 ht with h | h <;> simp [h]
  have hleaf := Expr.leaf_isOperand ht
  have htokens := Expr.tokens_leaf t
  have hsqueezes := Text.squeezes_of_isSolid hsolid
  have hplain : ∀ b ∈ t.lexeme, Text.isSolid b ∨ b = 0x20 := fun b hb => .inl (hsolid b hb)
  rcases hminus with rfl | rfl
  · have hspellsMinus : Layout.Spells .minus (utf8 "-") := ⟨0x2d, by decide⟩
    have hsolidMinus : ∀ b ∈ utf8 "-", Text.isSolid b := by decide
    refine ⟨.unary ⟨.minus, utf8 "-", 0, 0⟩ (.leaf t), ⟨⟨?_, rfl, ?_⟩, ?_, hvalid⟩, by simp, ?_, ?_⟩
    · exact ⟨.inr rfl, hleaf.isBinary, hleaf.shaped⟩
    · have := hleaf.nest_le
      rw [Expr.nest]
      omega
    · rw [Expr.tokens, htokens]
      simpa using ⟨hspellsMinus, hspells⟩
    · simpa [Expr.tokens, htokens] using (Text.squeezes_of_isSolid hsolidMinus).append hsqueezes
    · exact List.forall_mem_append.2 ⟨fun b hb => .inl (hsolidMinus b hb), hplain⟩
  · refine ⟨.leaf t, ⟨⟨hleaf.shaped, hleaf.isBinary, ?_⟩, ?_, hvalid⟩, by simp, ?_, hplain⟩
    · exact le_trans hleaf.nest_le (by decide)
    · rw [htokens]
      simpa using hspells
    · simpa [htokens] using hsqueezes

/-- A drawn operand. -/
theorem operand_yields (h : Sound ds) :
    Yields ds operand fun text => text.length ≤ 10 ∧ ∃ e, IsChain ds text e [] := by
  refine (oneIn_yields 6).bind fun b _ => ?_
  have hminus : (if b = true then utf8 "-" else []) = utf8 "-" ∨
      (if b = true then utf8 "-" else []) = [] := by
    cases b
    · exact .inr rfl
    · exact .inl rfl
  generalize (if b = true then utf8 "-" else []) = minus at hminus
  have hlength : minus.length ≤ 1 := by
    rcases hminus with rfl | rfl <;> decide
  refine Draws.get fun g hg => ?_
  subst hg
  extract_lets declared jp
  -- a variable is picked only if there is one
  have hjp : ∀ useVariable, (useVariable = true → g.declared ≠ []) →
      Yields g.declared (jp useVariable) fun text =>
        text.length ≤ 10 ∧ ∃ e, IsChain g.declared text e [] := by
    intro useVariable hne
    cases useVariable with
    | true =>
        refine (pick_yields _ (hne rfl)).bind ?_
        rintro ⟨name, k⟩ hknows
        have hname : name ∈ names := h.names _ hknows
        obtain ⟨hspells, -, hnlength⟩ := name_spec hname
        refine .pure ⟨⟨?_, isChain_leaf hminus (t := word name) rfl hspells ⟨k, hknows⟩⟩, rfl⟩
        rw [List.length_append]
        omega
    | false =>
        refine (oneIn_yields 3).bind fun c _ => (unsigned_yields _).bind fun s hs => ?_
        have hkind : Expr.literalKind ⟨none, ⟨.number, s, 0, 0⟩⟩ = _ := IsNumeral.literalKind hs
        have hvalid : (Expr.leaf ⟨.number, s, 0, 0⟩).Valid (Knows g.declared) := by
          show (Value.read? (Expr.literalKind ⟨none, ⟨.number, s, 0, 0⟩⟩) s).isSome
          rw [hkind]
          exact hs.read?_isSome (.inl rfl)
        have hnlength := hs.length_le
        refine .pure ⟨⟨?_, isChain_leaf hminus (t := ⟨.number, s, 0, 0⟩) rfl hs.spells hvalid⟩, rfl⟩
        rw [List.length_append]
        omega
  by_cases hempty : declared.isEmpty
  · rw [if_pos hempty]
    exact hjp false (by simp)
  · rw [if_neg hempty]
    refine (oneIn_yields 2).bind fun useVariable _ => hjp useVariable fun _ => ?_
    simpa using hempty

/-- The operators that are drawn. -/
theorem operator_spec {op : Bytes} (h : op ∈ [utf8 "+", utf8 "-", utf8 "*", utf8 "/"]) :
    ∃ t : Token, t.lexeme = op ∧ t.kind.isOperator ∧ Layout.Spells t.kind t.lexeme ∧
      op.length = 1 := by
  simp only [List.mem_cons, List.not_mem_nil, or_false] at h
  rcases h with rfl | rfl | rfl | rfl
  · exact ⟨⟨.plus, utf8 "+", 0, 0⟩, rfl, rfl, ⟨0x2b, by decide⟩, by decide⟩
  · exact ⟨⟨.minus, utf8 "-", 0, 0⟩, rfl, rfl, ⟨0x2d, by decide⟩, by decide⟩
  · exact ⟨⟨.times, utf8 "*", 0, 0⟩, rfl, rfl, ⟨0x2a, by decide⟩, by decide⟩
  · exact ⟨⟨.slash, utf8 "/", 0, 0⟩, rfl, rfl, ⟨0x2f, by decide⟩, by decide⟩

/-- A drawn gap is squeezed away. -/
theorem squeezes_gap {s : Bytes} (h : s = [] ∨ s = utf8 " ") : Text.Squeezes s [] := by
  rcases h with rfl | rfl
  · exact Text.squeezes_of_isSolid (by simp)
  · exact Text.squeezes_space

/-- An operand and an operator in front of a chain make a chain. -/
theorem IsChain.cons {text text' left right : Bytes} {a first : Expr} {op : Token}
    {more : List (Token × Expr)} (ha : IsChain ds text a [])
    (hop : op.kind.isOperator ∧ Layout.Spells op.kind op.lexeme)
    (hleft : left = [] ∨ left = utf8 " ") (hright : right = [] ∨ right = utf8 " ")
    (h : IsChain ds text' first more) :
    IsChain ds (text ++ (left ++ (op.lexeme ++ (right ++ text')))) a ((op, first) :: more) := by
  have hsolid : ∀ b ∈ op.lexeme, Text.isSolid b := by
    refine Layout.isSolid_of_spells ?_ hop.2
    rintro hk
    rw [hk] at hop
    cases hop.1
  refine ⟨ha.head, List.forall_mem_cons.2 ⟨⟨hop, h.head⟩, h.tail⟩, ?_, ?_⟩
  · have hsqueezes := ha.squeezes.append ((squeezes_gap hleft).append
      ((Text.squeezes_of_isSolid hsolid).append ((squeezes_gap hright).append h.squeezes)))
    simpa using hsqueezes
  · refine List.forall_mem_append.2 ⟨ha.plain, List.forall_mem_append.2 ⟨plain_of_gap hleft, ?_⟩⟩
    refine List.forall_mem_append.2 ⟨fun b hb => .inl (hsolid b hb), ?_⟩
    exact List.forall_mem_append.2 ⟨plain_of_gap hright, h.plain⟩

/-- A drawn expression. -/
theorem expression_yields (h : Sound ds) (n : Nat) :
    Yields ds (expression n) fun text => text.length ≤ 13 * (n + 1) ∧
      ∃ first more, IsChain ds text first more := by
  induction n with
  | zero =>
      refine (operand_yields h).imp ?_
      rintro text ds' ⟨⟨hlength, e, he⟩, rfl⟩
      exact ⟨⟨by omega, e, [], he⟩, rfl⟩
  | succ n ih =>
      refine (operand_yields h).bind ?_
      rintro text ⟨hlength, e, he⟩
      refine (oneIn_yields 3).bind fun b _ => ?_
      cases b with
      | true => exact .pure ⟨⟨by omega, e, [], he⟩, rfl⟩
      | false =>
          refine (pick_yields (utf8 "+") (by simp)).bind fun op hop => ?_
          refine gap_yields.bind fun left hleft => gap_yields.bind fun right hright => ?_
          refine ih.bind ?_
          rintro text' ⟨hlength', first, more, hchain⟩
          obtain ⟨t, rfl, hoperator, hspells, hone⟩ := operator_spec hop
          have hcons := he.cons ⟨hoperator, hspells⟩ hleft hright hchain
          refine .pure ⟨⟨?_, e, (t, first) :: more, ?_⟩, rfl⟩
          · have hllength := length_of_gap hleft
            have hrlength := length_of_gap hright
            simp only [List.length_append]
            omega
          · simpa only [List.append_assoc] using hcons

/-- A print of a chain is a drawn text. -/
theorem drawn_print (h : Sound ds) {text : Bytes} {first : Expr} {more : List (Token × Expr)}
    (hchain : IsChain ds text first more) (hlength : text.length ≤ 65) :
    Drawn ds (utf8 "print(" ++ (text ++ utf8 ");")) ds
      (.print (word (utf8 "print")) [] [] (some (.chain first more))) := by
  have htree := Expr.chain_isTreeOf (n := 2) (by decide) first more hchain.head.operand
    fun p hp => ⟨(hchain.tail p hp).1.1, (hchain.tail p hp).2.operand⟩
  constructor
  · exact ⟨rfl, rfl, _, rfl, htree.shaped, htree.nest_le⟩
  · show ∀ t ∈ (Expr.chain first more).tokens, Layout.Spells t.kind t.lexeme
    rw [htree.tokens]
    refine List.forall_mem_append.2 ⟨hchain.head.spells, ?_⟩
    intro t ht
    obtain ⟨p, hp, ht⟩ := List.mem_flatMap.1 ht
    obtain ⟨hop, hterm⟩ := hchain.tail p hp
    rcases List.mem_cons.1 ht with rfl | ht
    · exact hop.2
    · exact hterm.spells t ht
  · refine ⟨text, ?_, rfl⟩
    show Text.squeeze text = (Expr.chain first more).tokens.flatMap Token.lexeme
    rw [htree.tokens]
    exact hchain.squeezes.eq
  · exact ⟨_, rfl, hchain.head.valid.chain fun p hp => (hchain.tail p hp).2.valid⟩
  · simp [Statement.declares]
  · exact h
  · exact tidy_append (by decide : ∀ b ∈ utf8 "print(", Text.isSolid b) (by decide) hchain.plain
      (by decide : ∀ b ∈ utf8 ");", Text.isSolid b) (by decide)
  · have hopening : (utf8 "print(").length = 6 := by decide
    have hclosing : (utf8 ");").length = 2 := by decide
    simp only [List.length_append]
    omega

/-- A drawn print. -/
theorem print_draws (h : Sound ds) :
    Draws ds print fun text ds' => ∃ s, Drawn ds text ds' s := by
  refine (expression_yields h 4).bind ?_
  rintro text ⟨hlength, first, more, hchain⟩
  have hdrawn := drawn_print h hchain hlength
  refine .pure ⟨.print (word (utf8 "print")) [] [] (some (.chain first more)), ?_⟩
  simpa only [List.append_assoc] using hdrawn

/-- **Every drawn statement is valid.** -/
theorem statement_draws (h : Sound ds) :
    Draws ds statement fun text ds' => ∃ s, Drawn ds text ds' s := by
  refine Draws.get fun g hg => ?_
  subst hg
  by_cases hempty : g.declared.isEmpty
  · rw [if_pos hempty]
    exact declaration_draws h
  · rw [if_neg hempty]
    refine (choose_yields 10).bind fun n _ => ?_
    by_cases hdeclaration : n < 3
    · rw [if_pos hdeclaration]
      exact declaration_draws h
    · rw [if_neg hdeclaration]
      by_cases hassignment : n < 5
      · rw [if_pos hassignment]
        exact assignment_draws h (by simpa using hempty)
      · rw [if_neg hassignment]
        exact print_draws h

end LineCalc.Sampler
