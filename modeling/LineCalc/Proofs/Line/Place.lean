import LineCalc.Proofs.Expr.Leaves
import LineCalc.Proofs.Line.Outcome
import LineCalc.Proofs.Line.Writing
import LineCalc.Proofs.Token.Span
/-!
# The places of complaints

A complaint is about the line that is run, and one about a variable or a literal points at the bytes
that spell it.

* `Statement.token_of_exec` : what a statement complains about is one of its tokens;
* `Reading.tokens_of_outcome` : the tokens of a statement are those of its line;
* `Step.place_of_diagnostic` : so every complaint points at its line, and at the name or the number
  that it is about.
-/
namespace LineCalc

namespace Diagnostic

/-- The complaint is about the variable that its token names, which the table does not have. -/
structure NamesVariable (d : Diagnostic) (t : Table) : Prop where
  kind : d.token.kind = .ident
  missing : t.find? d.token.lexeme = none
  message : d.message = utf8 "variable not declared: " ++ d.token.lexeme

/-- The complaint is about the number that its token spells, which is no value of its kind. -/
structure NamesLiteral (d : Diagnostic) : Prop where
  kind : d.token.kind = .number
  message : ∃ k : Kind, Value.read? k d.token.lexeme = none ∧
    d.message = utf8 "invalid " ++ k.text ++ utf8 " literal: " ++ d.token.lexeme

/-- A missing variable is named. -/
theorem namesVariable {t : Table} {x : Token} (hk : x.kind = .ident)
    (hnone : t.find? x.lexeme = none) : NamesVariable ⟨.undeclared, x, [x.lexeme]⟩ t :=
  ⟨hk, hnone, by simp [message, Code.wording, Code.fill]⟩

/-- A literal that is no value is named. -/
theorem namesLiteral {x : Token} {k : Kind} (hk : x.kind = .number)
    (hnone : Value.read? k x.lexeme = none) : NamesLiteral ⟨.literal, x, [k.text, x.lexeme]⟩ :=
  ⟨hk, k, hnone, by simp [message, Code.wording, Code.fill]⟩

end Diagnostic

/-! ## Expressions -/

/-- A literal is marked by one of its tokens. -/
theorem Literal.token_mem_tokens (l : Literal) : l.token ∈ l.tokens := by
  obtain ⟨sign, n⟩ := l
  cases sign with
  | none => exact List.mem_singleton_self n
  | some s => exact List.mem_cons_self

/-- A literal that does not resolve is no value of its kind. -/
theorem Leaf.read?_eq_none {t : Table} {l : Literal} (h : ¬(Leaf.number l).Resolves t) :
    Value.read? (if 0x2e ∈ l.text then .double else .int) l.text = none := by
  rw [Resolves] at h
  split at h
  · next hpoint =>
      rw [if_pos hpoint]
      exact Option.map_eq_none_iff.2 (Option.eq_none_iff_forall_ne_some.2 fun x hx => h ⟨x, hx⟩)
  · next hpoint =>
      rw [if_neg hpoint]
      exact Option.map_eq_none_iff.2 (Option.eq_none_iff_forall_ne_some.2 fun i hi => h ⟨i, hi⟩)

namespace Expr

/-- The leaves of a shaped tree are names and numbers without a sign. -/
theorem Shaped.kind_of_mem_leaves {e : Expr} (h : e.Shaped) :
    ∀ leaf ∈ e.leaves, match leaf with
      | .number l => l.sign = none ∧ l.number.kind = .number
      | .name x => x.kind = .ident := by
  induction e with
  | number l => exact List.forall_mem_singleton.2 h
  | ident x => exact List.forall_mem_singleton.2 h
  | unary op e ih => exact ih h.2.2
  | binary op l r ihl ihr => exact List.forall_mem_append.2 ⟨ihl h.2.1, ihr h.2.2⟩

/-- A complaint about an expression is that about a leaf of it. -/
theorem exists_leaf_of_eval {t : Table} {e : Expr} {d : Diagnostic} (h : e.eval t = .error d) :
    ∃ leaf ∈ e.leaves, ¬leaf.Resolves t ∧ d = leaf.complaint := by
  obtain ⟨leaf, hleaf, hfault⟩ := List.exists_of_findSome?_eq_some (eval_eq_error_iff.1 h)
  exact ⟨leaf, hleaf, Leaf.eval_eq_error_iff.1 (Leaf.fault?_eq_some_iff.1 hfault)⟩

/-- It points at one of the tokens of the expression. -/
theorem token_of_eval {t : Table} {e : Expr} {d : Diagnostic} (h : e.eval t = .error d) :
    d.token ∈ e.tokens := by
  obtain ⟨leaf, hleaf, -, rfl⟩ := exists_leaf_of_eval h
  refine (leaves_sublist_tokens e).subset (List.mem_flatMap.2 ⟨leaf, hleaf, ?_⟩)
  cases leaf with
  | number l => exact l.token_mem_tokens
  | name x => exact List.mem_singleton_self x

/-- **What an expression complains about**: a name of it that is not in the table, or a number of it
that is no value. -/
theorem names_of_eval {t : Table} {e : Expr} {d : Diagnostic} (he : e.Shaped)
    (h : e.eval t = .error d) :
    d.code = .undeclared ∧ d.NamesVariable t ∨ d.code = .literal ∧ d.NamesLiteral := by
  obtain ⟨leaf, hleaf, hfails, rfl⟩ := exists_leaf_of_eval h
  have hkind := he.kind_of_mem_leaves leaf hleaf
  cases leaf with
  | name x =>
      have hnone : t.find? x.lexeme = none :=
        Option.eq_none_iff_forall_ne_some.2 fun v hv => hfails ⟨v, hv⟩
      exact .inl ⟨rfl, Diagnostic.namesVariable hkind hnone⟩
  | number l =>
      obtain ⟨sign, n⟩ := l
      obtain ⟨rfl, hnumber⟩ := hkind
      exact .inr ⟨rfl, Diagnostic.namesLiteral hnumber (Leaf.read?_eq_none hfails)⟩

end Expr

/-! ## Statements -/

namespace Statement

variable {t : Table} {d : Diagnostic}

/-- A complaint about a literal points at it. -/
theorem token_of_literalValue {k : Kind} {l : Literal} (h : literalValue k l = .error d) :
    d.token = l.token := by
  unfold literalValue at h
  split at h
  · cases h
  · cases h
    rfl

/-- A value that the table refuses is complained about at its name. -/
theorem token_refusal (name : Token) (e : TableError) : (refusal name e).token = name := by
  cases e <;> rfl

/-- A complaint about a declaration points at one of its tokens. -/
theorem token_of_execDeclaration {type name : Token} {value : Option Literal}
    (h : execDeclaration t type name value = .error d) :
    d.token ∈ (declaration type name value).tokens := by
  rcases Except.bind_eq_error_iff.1 h with h | ⟨v, -, h⟩
  · unfold declaredValue at h
    split at h
    · cases h
      exact List.mem_cons_self
    · cases value with
      | none => cases h
      | some l =>
          rw [token_of_literalValue h]
          exact List.mem_cons_of_mem _ (List.mem_cons_of_mem _ l.token_mem_tokens)
  · obtain ⟨e, -, rfl⟩ := Except.mapError_eq_error_iff.1 h
    rw [token_refusal]
    exact List.mem_cons_of_mem _ List.mem_cons_self

/-- **What an assignment complains about** is its name or its right side.  A variable that the table
does not have is named. -/
theorem token_of_execAssignment {name : Token} {value : Expr}
    (h : execAssignment t name value = .error d) :
    d.token ∈ (assignment name value).tokens ∧
      (name.kind = .ident → IsSource value → d.code = .undeclared → d.NamesVariable t) := by
  unfold execAssignment at h
  split at h
  · next hnone =>
      cases h
      exact ⟨List.mem_cons_self, fun hname _ _ => Diagnostic.namesVariable hname hnone⟩
  · next w hw =>
      rcases Except.bind_eq_error_iff.1 h with h | ⟨v, hv, h⟩
      · cases value with
        | ident source =>
            simp only [assignedValue] at h
            split at h
            · next hnone =>
                cases h
                refine ⟨List.mem_cons_of_mem _ (List.mem_singleton_self _), ?_⟩
                rintro - (⟨_, hsource⟩ | _) -
                exact Diagnostic.namesVariable hsource hnone
            · split at h
              · cases h
              · cases h
                exact ⟨List.mem_cons_of_mem _ (List.mem_singleton_self _), by simp⟩
        | number l =>
            have hcode := code_of_literalValue h
            refine ⟨?_, fun _ _ hundeclared => ?_⟩
            · rw [token_of_literalValue h]
              exact List.mem_cons_of_mem _ l.token_mem_tokens
            · rw [hcode] at hundeclared
              cases hundeclared
        | unary op e =>
            cases h
            exact ⟨List.mem_cons_self, by simp⟩
        | binary op l r =>
            cases h
            exact ⟨List.mem_cons_self, by simp⟩
      · -- a variable that was found is not missing when its value is stored
        have hkind := ((assignedValue_eq_ok_iff hw).1 hv).2
        rw [update_of_find? hw hkind] at h
        cases h

/-- **What a print complains about** is its expression, or the whole of it. -/
theorem token_of_execPrint {keyword : Token} {e : Expr} (h : execPrint t keyword e = .error d) :
    d.token = keyword ∧ d.code = .arithmetic ∨ e.eval t = .error d := by
  rcases Except.bind_eq_error_iff.1 h with h | ⟨r, -, h⟩
  · exact .inr h
  · split at h
    · cases h
    · cases h
      exact .inl ⟨rfl, rfl⟩

/-- The tokens of a declaration are on its line. -/
theorem IsDeclaration.tokens_subset {type name : Token} {value : Option Literal} {ts : List Token}
    (h : IsDeclaration type name value ts) : (declaration type name value).tokens ⊆ ts := by
  obtain ⟨init, closing, hinit, -, rfl⟩ := h.tokens
  refine List.cons_subset_cons _ (List.cons_subset_cons _ ?_)
  cases value with
  | none => exact List.nil_subset _
  | some l =>
      obtain ⟨assign, -, rfl, -⟩ := hinit
      exact fun u hu => List.mem_cons_of_mem _ (List.mem_append_left _ hu)

/-- The tokens of an assignment are on its line. -/
theorem IsAssignment.tokens_subset {name : Token} {value : Expr} {ts : List Token}
    (h : IsAssignment name value ts) : (assignment name value).tokens ⊆ ts := by
  obtain ⟨assign, closing, -, -, rfl⟩ := h.tokens
  refine List.cons_subset_cons _ fun u hu => ?_
  exact List.mem_cons_of_mem _ (List.mem_append_left _ hu)

/-- A complaint about a statement points at one of its tokens. -/
theorem token_of_exec {s : Statement} (h : s.exec t = .error d) :
    d.token ∈ s.token :: s.tokens := by
  cases s with
  | declaration type name value =>
      exact List.mem_cons_of_mem _ (token_of_execDeclaration (Except.map_eq_error_iff.1 h))
  | assignment name value =>
      exact List.mem_cons_of_mem _ (token_of_execAssignment (Except.map_eq_error_iff.1 h)).1
  | print keyword line body value =>
      cases value with
      | none => cases h
      | some e =>
          rcases token_of_execPrint (Except.map_eq_error_iff.1 h) with ⟨hkeyword, -⟩ | heval
          · exact List.mem_cons.2 (.inl hkeyword)
          · exact List.mem_cons_of_mem _ (Expr.token_of_eval heval)

end Statement

/-! ## Lines -/

namespace Reading

variable {lenient : Bool} {number : Int} {line : Bytes}

/-- A legal token of a line is found in the text that the tokens are cut from. -/
theorem standsIn_of_mem_units {kind : LineKind} {body : Bytes} {u : Token}
    (hu : u ∈ units lenient number kind line body) (hk : u.kind ≠ .illegal) :
    u.StandsIn (scanned kind line body) := by
  have hend : u.kind ≠ .eof := by simpa using List.mem_takeWhile_imp hu
  have hscan : u ∈ scan lenient number kind line body := (List.takeWhile_sublist _).subset hu
  rw [scan_eq] at hscan
  split at hscan
  · next hprint =>
      obtain ⟨-, rfl⟩ : lenient = true ∧ kind = .print := by simpa using hprint
      exact (Token.tiles_of_mem_scan (List.mem_filter.1 hscan).1 hend).standsIn hk
  · exact (Token.tiles_of_mem_scan hscan hend).standsIn hk

/-- The expression of a print line is its body. -/
theorem body_of_printBody? {body : Bytes} (h : LineKind.printBody? line = some body)
    (hkind : LineKind.ofLine line = .print) : (ofLine lenient number line).body = body := by
  rw [ofLine, hkind]
  simp only [h]
  rfl

/-- Other lines have no body. -/
theorem body_of_ne_print (hkind : LineKind.ofLine line ≠ .print) :
    (ofLine lenient number line).body = [] := by
  unfold ofLine
  split
  · next hprint => exact absurd hprint hkind
  · rfl

/-- **The tokens of a statement are those of its line.** -/
theorem tokens_of_outcome {s : Statement} (h : (ofLine lenient number line).outcome = .ok s) :
    s.token.line = number ∧ s.tokens ⊆
      units lenient number (LineKind.ofLine line) line (ofLine lenient number line).body := by
  rw [outcome_eq_ok_iff] at h
  cases hkind : LineKind.ofLine line with
  | declaration =>
      rw [hkind] at h
      obtain ⟨type, name, value, rfl, hdecl⟩ := h
      have hsub := hdecl.tokens_subset
      rw [body_of_ne_print (by simp [hkind])]
      exact ⟨line_of_mem_units (hsub List.mem_cons_self), hsub⟩
  | assignment =>
      rw [hkind] at h
      obtain ⟨name, value, rfl, hassign⟩ := h
      have hsub := hassign.tokens_subset
      rw [body_of_ne_print (by simp [hkind])]
      exact ⟨line_of_mem_units (hsub List.mem_cons_self), hsub⟩
  | print =>
      rw [hkind] at h
      obtain ⟨body, e, hbody, rfl, htree⟩ := h
      rw [body_of_printBody? hbody hkind, ← htree.tokens]
      exact ⟨rfl, List.Subset.refl _⟩

/-- What a print line complains about, besides its arithmetic, is named and found in its
expression. -/
theorem names_of_print {t : Table} {s : Statement} {d : Diagnostic}
    (h : (ofLine lenient number line).outcome = .ok s) (hkind : LineKind.ofLine line = .print)
    (hd : s.exec t = .error d) :
    d.code = .arithmetic ∨ d.token.StandsIn (ofLine lenient number line).body ∧
      (d.code = .undeclared ∧ d.NamesVariable t ∨ d.code = .literal ∧ d.NamesLiteral) := by
  rw [outcome_eq_ok_iff, hkind] at h
  obtain ⟨body, e, hbody, rfl, htree⟩ := h
  rcases Statement.token_of_execPrint (Except.map_eq_error_iff.1 hd) with ⟨-, hcode⟩ | heval
  · exact .inl hcode
  · have hmem := Expr.token_of_eval heval
    have hnames := Expr.names_of_eval htree.shaped heval
    have hlegal : d.token.kind ≠ .illegal := by
      rcases hnames with ⟨-, hname⟩ | ⟨-, hnumber⟩
      · simp [hname.kind]
      · simp [hnumber.kind]
    rw [htree.tokens] at hmem
    rw [body_of_printBody? hbody hkind]
    exact .inr ⟨standsIn_of_mem_units hmem hlegal, hnames⟩

/-- A variable that is missing in an assignment is named and found in the line. -/
theorem names_of_assignment {t : Table} {s : Statement} {d : Diagnostic}
    (h : (ofLine lenient number line).outcome = .ok s) (hkind : LineKind.ofLine line = .assignment)
    (hd : s.exec t = .error d) (hcode : d.code = .undeclared) :
    d.NamesVariable t ∧ d.token.StandsIn line := by
  rw [outcome_eq_ok_iff, hkind] at h
  obtain ⟨name, value, rfl, hassign⟩ := h
  obtain ⟨hmem, hnames⟩ := Statement.token_of_execAssignment (Except.map_eq_error_iff.1 hd)
  have hname := hnames hassign.name_kind hassign.source hcode
  exact ⟨hname, standsIn_of_mem_units (hassign.tokens_subset hmem) (by simp [hname.kind])⟩

/-- A line that is not read is complained about as a whole. -/
theorem token_of_diagnostic? {d : Diagnostic} {r : Reading}
    (h : r.diagnostic? number line = some d) :
    d.token = .wholeLine number ∧ d.code ≠ .undeclared ∧ d.code ≠ .literal := by
  unfold diagnostic? at h
  split at h
  · cases h
  · cases h
    exact ⟨rfl, by simp, by simp⟩
  · split at h
    all_goals
      cases h
      exact ⟨rfl, by simp, by simp⟩

end Reading

namespace Step

variable {lenient : Bool} {t : Table} {number : Int} {line : Bytes} {d : Diagnostic}

/-- A complaint about a line is that of its reader, or that of its statement in its place. -/
theorem exec_of_diagnostic? (h : (ofLine lenient t number line).diagnostic? = some d) :
    d.token = .wholeLine number ∧ d.code ≠ .undeclared ∧ d.code ≠ .literal ∨
      ∃ s d', (Reading.ofLine lenient number line).outcome = .ok s ∧ s.exec t = .error d' ∧
        d = place number d' := by
  unfold ofLine at h
  cases hs : (Reading.ofLine lenient number line).statement? with
  | none =>
      simp only [hs] at h
      exact .inl (Reading.token_of_diagnostic? h)
  | some s =>
      simp only [hs, execute] at h
      refine .inr ⟨s, ?_⟩
      split at h
      · cases h
      · next d' hd' =>
          cases h
          exact ⟨d', Reading.statement?_eq_some_iff.1 hs, hd', rfl⟩

/-- A complaint of a statement stays where it is if that is a line. -/
theorem place_of_ne_zero (hline : d.token.line = number) (hn : number ≠ 0) :
    place number d = d := by
  rw [place, if_neg (by rwa [hline])]

/-- In its place a complaint is about its line. -/
theorem line_place (hline : d.token.line = number) : (place number d).token.line = number := by
  rw [place]
  split
  · rfl
  · exact hline

/-- **Complaints point at the right place.**  Every complaint about a line is about the line of that
number.  If the number is not zero, a missing variable or a literal without a value in a print line
is named by the complaint, and found in the expression at the column of its token; so is a missing
variable in an assignment, and found in the line. -/
theorem place_of_diagnostic (lenient : Bool) (t : Table) (number : Int) (line : Bytes)
    (d : Diagnostic) (h : (ofLine lenient t number line).diagnostic? = some d) :
    d.token.line = number ∧
    (number ≠ 0 →
      (LineKind.ofLine line = .print → d.code = .undeclared →
        d.NamesVariable t ∧ d.token.StandsIn (Reading.ofLine lenient number line).body) ∧
      (LineKind.ofLine line = .print → d.code = .literal →
        d.NamesLiteral ∧ d.token.StandsIn (Reading.ofLine lenient number line).body) ∧
      (LineKind.ofLine line = .assignment → d.code = .undeclared →
        d.NamesVariable t ∧ d.token.StandsIn line)) := by
  rcases exec_of_diagnostic? h with ⟨htoken, hundeclared, hliteral⟩ | ⟨s, d', hs, hd', rfl⟩
  · refine ⟨htoken ▸ rfl, fun _ => ⟨?_, ?_, ?_⟩⟩
    · exact fun _ hcode => absurd hcode hundeclared
    · exact fun _ hcode => absurd hcode hliteral
    · exact fun _ hcode => absurd hcode hundeclared
  · obtain ⟨htoken, htokens⟩ := Reading.tokens_of_outcome hs
    have hline : d'.token.line = number := by
      rcases List.mem_cons.1 (Statement.token_of_exec hd') with hmem | hmem
      · rw [hmem, htoken]
      · exact Reading.line_of_mem_units (htokens hmem)
    refine ⟨line_place hline, fun hn => ?_⟩
    rw [place_of_ne_zero hline hn]
    refine ⟨fun hkind hcode => ?_, fun hkind hcode => ?_,
      fun hkind => Reading.names_of_assignment hs hkind hd'⟩
    · have hnames := Reading.names_of_print hs hkind hd'
      simp only [hcode, reduceCtorEq, false_or, true_and, false_and, or_false] at hnames
      exact ⟨hnames.2, hnames.1⟩
    · have hnames := Reading.names_of_print hs hkind hd'
      simp only [hcode, reduceCtorEq, false_or, true_and, false_and] at hnames
      exact ⟨hnames.2, hnames.1⟩

/-- A missing variable behind a product is found at its byte. -/
theorem place_of_diagnostic_product :
    (⟨.ident, "rate", 7, 3⟩ : Token).StandsIn
      (Reading.ofLine true 7 "print( 2 *\trate );").body := by
  have hd : (ofLine true .empty 7 "print( 2 *\trate );").diagnostic? =
      some ⟨.undeclared, ⟨.ident, "rate", 7, 3⟩, ["rate"]⟩ := by
    decide +kernel
  have hkind : LineKind.ofLine "print( 2 *\trate );" = .print := by decide +kernel
  exact (((place_of_diagnostic true .empty 7 "print( 2 *\trate );" _ hd).2 (by decide)).1 hkind
    rfl).2

end Step

end LineCalc
