import LineCalc.Proofs.Expr.Rows
import LineCalc.Proofs.Line.RoundTrip
import LineCalc.Proofs.Text.Quoted
/-!
# Statements by their trees

The printed tree of a statement says all of it but the places of its tokens and the line that it
was read from.

* `Statement.treeRows_eq_cons` : a tree is a heading and the trees of the parts;
* `Statement.outline_eq_of_tree_eq` : a statement is told by its tree;
* `Reading.kinded_of_outcome` : the tokens of what is read are of the kinds that its nodes ask for;
* `Reading.tree_eq_iff` : statements that were read from any lines have one tree just if they are
  the same.
-/
namespace LineCalc

/-! ## The lines of a tree -/

namespace LineKind

/-- What the tree of a statement of the kind starts with. -/
def heading : LineKind → Bytes
  | declaration => utf8 "DeclarationStatement "
  | assignment => utf8 "AssignmentStatement"
  | print => utf8 "PrintStatement "

/-- The headings of the kinds. -/
def headings : List Bytes :=
  [utf8 "DeclarationStatement ", utf8 "AssignmentStatement", utf8 "PrintStatement "]

/-- Every kind has one of the headings. -/
theorem heading_mem_headings (k : LineKind) : k.heading ∈ headings := by
  cases k <;> simp [heading, headings]

/-- The kinds have headings of their own. -/
theorem heading_injective {k k' : LineKind} (h : k.heading = k'.heading) : k = k' := by
  cases k <;> cases k' <;> first | rfl | exact absurd h (by decide)

end LineKind

namespace Statement

/-- What the first line of a tree shows of the statement. -/
def shown : Statement → Bytes
  | declaration t _ _ => t.lexeme
  | assignment .. => []
  | print _ _ body _ => Text.quote body

/-- The expressions whose trees stand below the first line. -/
def parts : Statement → List Expr
  | declaration _ n v => .ident n :: (v.map Expr.number).toList
  | assignment n e => [.ident n, e]
  | print _ _ _ v => v.toList

/-- **A tree is a heading and the trees of the parts.** -/
theorem treeRows_eq_cons (s : Statement) :
    s.treeRows = ⟨0, s.kind.heading ++ s.shown⟩ :: s.parts.flatMap (Expr.treeRows 1) := by
  cases s with
  | declaration t n v => cases v <;> rfl
  | assignment n e => simp [treeRows, kind, shown, parts, LineKind.heading]
  | print k line body v => cases v <;> simp [treeRows, kind, shown, parts, LineKind.heading]

/-- The tokens of the parts are tokens of the statement. -/
theorem mem_tokens_of_mem_parts {s : Statement} {e : Expr} (he : e ∈ s.parts) :
    ∀ t ∈ e.tokens, t ∈ s.tokens := by
  intro t ht
  cases s with
  | declaration type n v =>
      rcases List.mem_cons.1 he with rfl | he
      · rw [List.mem_singleton.1 ht]
        simp [tokens]
      · obtain ⟨l, hl, rfl⟩ := Option.map_eq_some_iff.1 (Option.mem_toList.1 he)
        simp [tokens, hl, show t ∈ l.tokens from ht]
  | assignment n v =>
      rcases List.mem_cons.1 he with rfl | he
      · rw [List.mem_singleton.1 ht]
        simp [tokens]
      · rw [List.mem_singleton.1 he] at ht
        simp [tokens, ht]
  | print k line body v =>
      have hv : v = some e := Option.mem_toList.1 he
      simpa [tokens, hv] using ht

/-- The lines of the tree of a spelled statement are plain. -/
theorem isPlain_treeRows {s : Statement} (h : s.Spelled) : ∀ r ∈ s.treeRows, r.IsPlain := by
  have hheading : ∀ u ∈ LineKind.headings,
      u ≠ [] ∧ u.head? ≠ some 0x20 ∧ ∀ b ∈ u, b ≠ 0x0a := by
    decide
  obtain ⟨hne, hhead, hnewline⟩ := hheading _ s.kind.heading_mem_headings
  have hshown : ∀ b ∈ s.shown, b ≠ 0x0a := by
    cases s with
    | declaration t n v => exact (h t List.mem_cons_self).ne_newline
    | assignment n e => exact List.forall_mem_nil _
    | print k line body v => exact Text.ne_newline_of_mem_quote body
  rw [treeRows_eq_cons]
  refine List.forall_mem_cons.2 ⟨Expr.TreeRow.isPlain_append hne ⟨hhead, hnewline⟩ hshown, ?_⟩
  intro r hr
  obtain ⟨e, he, hr⟩ := List.mem_flatMap.1 hr
  refine Expr.isPlain_treeRows (fun t ht => ?_) 1 r hr
  exact (h t (mem_tokens_of_mem_parts he t ht)).ne_newline

/-! ## Statements and their lines -/

/-- The tokens of the statement are of the kinds that its nodes ask for. -/
structure Kinded (s : Statement) : Prop where
  token : s.token.kind = .ident
  word : s.kind = .print → s.token.lexeme = utf8 "print"
  parts : ∀ e ∈ s.parts, e.Kinded

/-- A statement is told by its kind, its parts and what the first line shows of it. -/
theorem outline_eq_of_parts {s s' : Statement} (hs : s.Kinded) (hs' : s'.Kinded)
    (hkind : s.kind = s'.kind) (hshown : s.shown = s'.shown)
    (hparts : s.parts.map Expr.unplaced = s'.parts.map Expr.unplaced) :
    s.outline = s'.outline ∧ s.body = s'.body := by
  have htoken : s.token.lexeme = s'.token.lexeme → s.token.unplaced = s'.token.unplaced :=
    fun h => Token.unplaced_inj.2 ⟨hs.token.trans hs'.token.symm, h⟩
  cases s with
  | declaration t n v =>
      cases s' with
      | declaration t' n' v' =>
          obtain ⟨hname, hvalue⟩ := List.cons.inj hparts
          have hv : v.map Literal.unplaced = v'.map Literal.unplaced := by
            cases v <;> cases v' <;> simp_all [Expr.unplaced]
          have ht : t.unplaced = t'.unplaced := htoken hshown
          rw [outline, outline, ht, Expr.ident.inj hname, hv]
          exact ⟨rfl, rfl⟩
      | assignment n' e' => cases hkind
      | print k' line' body' v' => cases hkind
  | assignment n e =>
      cases s' with
      | declaration t' n' v' => cases hkind
      | assignment n' e' =>
          obtain ⟨hname, hvalue⟩ := List.cons.inj hparts
          rw [outline, outline, Expr.ident.inj hname, List.head_eq_of_cons_eq hvalue]
          exact ⟨rfl, rfl⟩
      | print k' line' body' v' => cases hkind
  | print k line body v =>
      cases s' with
      | declaration t' n' v' => cases hkind
      | assignment n' e' => cases hkind
      | print k' line' body' v' =>
          have hk : k.unplaced = k'.unplaced := htoken ((hs.word rfl).trans (hs'.word rfl).symm)
          have hv : v.map Expr.unplaced = v'.map Expr.unplaced := by
            cases v <;> cases v' <;> simp_all [parts]
          rw [outline, outline, hk, hv]
          exact ⟨rfl, Text.quote_injective hshown⟩

/-- **A statement is told by its tree**, but for the places of its tokens and the line that a print
keeps. -/
theorem outline_eq_of_tree_eq {s s' : Statement} (hs : s.Kinded) (hs' : s'.Kinded)
    (hspelled : s.Spelled) (hspelled' : s'.Spelled) (h : s.tree = s'.tree) :
    s.outline = s'.outline ∧ s.body = s'.body := by
  have hrows : s.treeRows = s'.treeRows :=
    Expr.lines_injective (isPlain_treeRows hspelled) (isPlain_treeRows hspelled') h
  rw [treeRows_eq_cons, treeRows_eq_cons] at hrows
  obtain ⟨hfirst, hbelow⟩ := List.cons.inj hrows
  obtain ⟨hheading, hshown⟩ := Bytes.label_append_inj
    (by decide : ∀ u ∈ LineKind.headings, ∀ v ∈ LineKind.headings, u <+: v → u = v)
    s.kind.heading_mem_headings s'.kind.heading_mem_headings
    (congrArg Expr.TreeRow.text hfirst)
  refine outline_eq_of_parts hs hs' (LineKind.heading_injective hheading) hshown ?_
  -- every tree ends where that of the next part starts
  refine map_eq_of_flatMap_eq
    (P := fun e => e.Kinded ∧ ∀ t ∈ e.tokens, Layout.Spells t.kind t.lexeme) ?_ ?_ ?_ ?_ hbelow
  · intro e _
    rw [Expr.treeRows_eq_cons]
    exact List.cons_ne_nil _ _
  · rintro e e' rs rs' ⟨he, hes⟩ ⟨he', hes'⟩ hrows
    exact Expr.treeRows_append_inj he he' hes hes' hrows
  · exact fun e he => ⟨hs.parts e he, fun t ht => hspelled t (mem_tokens_of_mem_parts he t ht)⟩
  · exact fun e he => ⟨hs'.parts e he, fun t ht => hspelled' t (mem_tokens_of_mem_parts he t ht)⟩

end Statement

/-! ## What is read -/

namespace Reading

/-- The tokens of what is read are of the kinds that its nodes ask for. -/
theorem kinded_of_outcome {lenient : Bool} {number : Int} {line : Bytes} {s : Statement}
    (hs : (ofLine lenient number line).outcome = .ok s) : s.Kinded := by
  rw [outcome_eq_ok_iff] at hs
  cases hkind : LineKind.ofLine line with
  | declaration =>
      rw [hkind] at hs
      obtain ⟨t, n, v, rfl, ht, -, hn, -, init, closing, hinit, -, -⟩ := hs
      refine ⟨ht, nofun, List.forall_mem_cons.2 ⟨hn, ?_⟩⟩
      intro e he
      obtain ⟨l, rfl, rfl⟩ := Option.map_eq_some_iff.1 (Option.mem_toList.1 he)
      obtain ⟨-, -, -, hl⟩ := hinit
      exact hl
  | assignment =>
      rw [hkind] at hs
      obtain ⟨n, e, rfl, hn, hsource, -⟩ := hs
      exact ⟨hn, nofun, List.forall_mem_cons.2 ⟨hn, List.forall_mem_singleton.2 hsource.kinded⟩⟩
  | print =>
      rw [hkind] at hs
      obtain ⟨body, e, -, rfl, htree⟩ := hs
      exact ⟨rfl, fun _ => rfl, List.forall_mem_singleton.2 htree.shaped.kinded⟩

/-- **Trees are faithful.**  Two statements that are read, from any lines and strictly or not, have
one printed tree just if they are the same but for the places of their tokens and the lines that
prints keep. -/
theorem tree_eq_iff {lenient lenient' : Bool} {number number' : Int} {line line' : Bytes}
    {s s' : Statement} (hs : (ofLine lenient number line).outcome = .ok s)
    (hs' : (ofLine lenient' number' line').outcome = .ok s') :
    s.tree = s'.tree ↔ s.outline = s'.outline ∧ s.body = s'.body := by
  constructor
  · exact Statement.outline_eq_of_tree_eq (kinded_of_outcome hs) (kinded_of_outcome hs')
      (spelled_of_outcome hs) (spelled_of_outcome hs')
  · rintro ⟨houtline, hbody⟩
    exact Statement.tree_eq_of_outline houtline hbody

/-- The spaces of `1 - x` are not seen in its tree, but a character that is skipped is. -/
theorem tree_eq_iff_print :
    ∃ s s' s'' : Statement, (ofLine false 1 "print(1 -x);").outcome = .ok s ∧
      (ofLine true 2 "print(1- x);").outcome = .ok s' ∧
      (ofLine true 3 "print(1$-x);").outcome = .ok s'' ∧
      s.tree = s'.tree ∧ s.outline = s''.outline ∧ s.tree ≠ s''.tree := by
  have hread : (ofLine false 1 "print(1 -x);").outcome =
      .ok (.print ⟨.ident, "print", 1, 1⟩ "print(1 -x);" "1-x" (some
        (.binary ⟨.minus, "-", 1, 2⟩ (.number ⟨none, ⟨.number, "1", 1, 1⟩⟩)
          (.ident ⟨.ident, "x", 1, 3⟩)))) := by
    decide +kernel
  have hread' : (ofLine true 2 "print(1- x);").outcome =
      .ok (.print ⟨.ident, "print", 2, 1⟩ "print(1- x);" "1-x" (some
        (.binary ⟨.minus, "-", 2, 2⟩ (.number ⟨none, ⟨.number, "1", 2, 1⟩⟩)
          (.ident ⟨.ident, "x", 2, 3⟩)))) := by
    decide +kernel
  have hread'' : (ofLine true 3 "print(1$-x);").outcome =
      .ok (.print ⟨.ident, "print", 3, 1⟩ "print(1$-x);" "1$-x" (some
        (.binary ⟨.minus, "-", 3, 3⟩ (.number ⟨none, ⟨.number, "1", 3, 1⟩⟩)
          (.ident ⟨.ident, "x", 3, 4⟩)))) := by
    decide +kernel
  refine ⟨_, _, _, hread, hread', hread'', (tree_eq_iff hread hread').2 ⟨by decide, by decide⟩,
    by decide, fun htree => ?_⟩
  obtain ⟨-, hbody⟩ := (tree_eq_iff hread hread'').1 htree
  exact absurd hbody (by decide)

end Reading

end LineCalc
