import LineCalc.Proofs.Except
import LineCalc.Proofs.Statement.Recorder
/-!
# The first impossible token

Reading the tokens of an expression from left to right, there is a first one after which no
expression can come about any more, whatever follows.  A parser that gives up names that token.

* `Grammar.isViable_iff` : whether tokens can still become an expression depends on the last of
  them alone, as long as all of them could;
* `Expr.failsAt_of_parseAt` : reading gets stuck where an operand is due and none starts;
* `Statement.complaint_parse` : the complaint about a print line names its first impossible token.
-/
namespace LineCalc

/-! ## The grammar -/

namespace Grammar

/-- `unary = ("+" | "-") unary | NUMBER | IDENT`. -/
inductive IsUnary : List Token → Prop
  | operand {t : Token} : t.kind = .number ∨ t.kind = .ident → IsUnary [t]
  | sign {t : Token} {us : List Token} :
      t.kind = .plus ∨ t.kind = .minus → IsUnary us → IsUnary (t :: us)

/-- `term = unary { ("*" | "/") unary }`. -/
inductive IsTerm : List Token → Prop
  | unary {us : List Token} : IsUnary us → IsTerm us
  | product {ts us : List Token} {t : Token} :
      IsTerm ts → t.kind = .times ∨ t.kind = .slash → IsUnary us → IsTerm (ts ++ t :: us)

/-- `expr = term { ("+" | "-") term }`. -/
inductive IsExpression : List Token → Prop
  | term {ts : List Token} : IsTerm ts → IsExpression ts
  | sum {es ts : List Token} {t : Token} :
      IsExpression es → t.kind = .plus ∨ t.kind = .minus → IsTerm ts → IsExpression (es ++ t :: ts)

/-- An expression and the end. -/
def IsLine (ts : List Token) : Prop :=
  ∃ es last, IsExpression es ∧ last.kind = .eof ∧ ts = es ++ [last]

/-- Something can follow that makes the tokens an expression up to the end. -/
def IsViable (ts : List Token) : Prop := ∃ rest, IsLine (ts ++ rest)

/-- The token is the first of its row after which nothing can follow any more that makes an
expression. -/
def IsFirstImpossible (u : Token) (ts : List Token) : Prop :=
  ∃ before after, ts = before ++ u :: after ∧ IsViable before ∧ ¬IsViable (before ++ [u])

/-- What can become an expression could so all along. -/
theorem IsViable.of_append {ts us : List Token} (h : IsViable (ts ++ us)) : IsViable ts := by
  obtain ⟨rest, h⟩ := h
  exact ⟨us ++ rest, by rwa [← List.append_assoc]⟩

/-- What stands in front of a first impossible token does not go on with an impossible one. -/
theorem IsViable.eq_of_append {before between after after' : List Token} {u u' : Token}
    (hviable : IsViable (before ++ between)) (himpossible : ¬IsViable (before ++ [u]))
    (heq : u :: after = between ++ u' :: after') : u = u' := by
  cases between with
  | nil => exact (List.cons.inj heq).1
  | cons v between =>
      obtain ⟨rfl, -⟩ := List.cons.inj heq
      rw [← List.singleton_append, ← List.append_assoc] at hviable
      exact absurd hviable.of_append himpossible

/-- A row has at most one first impossible token. -/
theorem IsFirstImpossible.unique {u u' : Token} {ts : List Token} (h : IsFirstImpossible u ts)
    (h' : IsFirstImpossible u' ts) : u = u' := by
  obtain ⟨before, after, rfl, hviable, himpossible⟩ := h
  obtain ⟨before', after', heq, hviable', himpossible'⟩ := h'
  rcases List.append_eq_append_iff.1 heq with ⟨between, rfl, hbetween⟩ | ⟨between, rfl, hbetween⟩
  · exact hviable'.eq_of_append himpossible hbetween
  · exact (hviable.eq_of_append himpossible' hbetween).symm

/-- A product may be continued behind the last term of an expression. -/
theorem IsExpression.product {es us : List Token} {t : Token} (h : IsExpression es)
    (ht : t.kind = .times ∨ t.kind = .slash) (hus : IsUnary us) :
    IsExpression (es ++ t :: us) := by
  cases h with
  | term h => exact .term (h.product ht hus)
  | sum h hop hterm =>
      rw [List.append_assoc, List.cons_append]
      exact h.sum hop (hterm.product ht hus)

/-! ## Where the next token stands -/

/-- What may come next: an operand or its signs, an operator or the end, or nothing at all. -/
inductive Place where
  | operand
  | operator
  | done
  deriving DecidableEq, Repr

/-- The place behind a token, if the token may stand at the place. -/
def Place.next? (p : Place) (k : TokenKind) : Option Place :=
  match p with
  | operand =>
    if k = .number ∨ k = .ident then some operator
    else if k = .plus ∨ k = .minus then some operand
    else none
  | operator =>
    if k = .plus ∨ k = .minus then some operand
    else if k = .times ∨ k = .slash then some operand
    else if k = .eof then some done
    else none
  | done => none

/-- The place behind a row of tokens, if each of them may stand where it does. -/
def Place.after? (p : Place) (ts : List Token) : Option Place :=
  ts.foldlM (fun p t => p.next? t.kind) p

/-- The place behind one more token. -/
@[simp]
theorem Place.after?_cons (p : Place) (t : Token) (ts : List Token) :
    p.after? (t :: ts) = (p.next? t.kind).bind (·.after? ts) := rfl

/-- The place behind nothing. -/
@[simp]
theorem Place.after?_nil (p : Place) : p.after? [] = some p := rfl

/-- The place behind two rows. -/
@[simp]
theorem Place.after?_append (p : Place) (ts us : List Token) :
    p.after? (ts ++ us) = (p.after? ts).bind (·.after? us) :=
  List.foldlM_append

/-- Behind a unary expression comes an operator. -/
theorem IsUnary.after? {us : List Token} (h : IsUnary us) :
    Place.operand.after? us = some .operator := by
  induction h with
  | operand ht => rcases ht with ht | ht <;> simp [ht, Place.next?]
  | sign ht _ ih => rcases ht with ht | ht <;> simp [ht, Place.next?, ih]

/-- Behind a term comes an operator. -/
theorem IsTerm.after? {ts : List Token} (h : IsTerm ts) :
    Place.operand.after? ts = some .operator := by
  induction h with
  | unary h => exact h.after?
  | product _ ht hus ih => rcases ht with ht | ht <;> simp [ht, Place.next?, ih, hus.after?]

/-- Behind an expression comes an operator. -/
theorem IsExpression.after? {es : List Token} (h : IsExpression es) :
    Place.operand.after? es = some .operator := by
  induction h with
  | term h => exact h.after?
  | sum _ ht hts ih => rcases ht with ht | ht <;> simp [ht, Place.next?, ih, hts.after?]

/-- What the tokens in front of a place are: where an operand is due, any unary expression makes
them an expression; where an operator is due, they are one. -/
def Place.Fits : Place → List Token → Prop
  | operand, ts => ∀ us, IsUnary us → IsExpression (ts ++ us)
  | operator, ts => IsExpression ts
  | done, ts => IsLine ts

/-- One more token keeps the tokens fitting their place. -/
theorem Place.Fits.next {p q : Place} {ts : List Token} {t : Token} (h : p.Fits ts)
    (hq : p.next? t.kind = some q) : q.Fits (ts ++ [t]) := by
  cases p with
  | operand =>
      simp only [Place.next?] at hq
      split_ifs at hq with hoperand hsign
      · cases hq
        exact h _ (.operand hoperand)
      · cases hq
        intro us hus
        rw [List.append_assoc]
        exact h _ (.sign hsign hus)
  | operator =>
      simp only [Place.next?] at hq
      split_ifs at hq with hsum hproduct hend
      · cases hq
        intro us hus
        rw [List.append_assoc]
        exact h.sum hsum (.unary hus)
      · cases hq
        intro us hus
        rw [List.append_assoc]
        exact h.product hproduct hus
      · cases hq
        exact ⟨ts, t, h, hend, rfl⟩
  | done => cases hq

/-- Tokens fit the place behind them. -/
theorem Place.Fits.after {p q : Place} {ts us : List Token} (h : p.Fits ts)
    (hq : p.after? us = some q) : q.Fits (ts ++ us) := by
  induction us generalizing p ts with
  | nil =>
      cases hq
      rwa [List.append_nil]
  | cons t us ih =>
      rw [Place.after?_cons] at hq
      obtain ⟨p', hp', hq⟩ := Option.bind_eq_some_iff.1 hq
      rw [← List.singleton_append, ← List.append_assoc]
      exact ih (h.next hp') hq

/-- Tokens that fit their place can become an expression. -/
theorem Place.Fits.isViable {p : Place} {ts : List Token} (h : p.Fits ts) : IsViable ts := by
  cases p with
  | operand =>
      have hnumber : IsUnary [⟨.number, [], 0, 0⟩] := .operand (.inl rfl)
      exact ⟨[⟨.number, [], 0, 0⟩, ⟨.eof, [], 0, 0⟩], _, ⟨.eof, [], 0, 0⟩, h _ hnumber, rfl,
        by simp⟩
  | operator => exact ⟨[⟨.eof, [], 0, 0⟩], _, _, h, rfl, rfl⟩
  | done => exact ⟨[], by rwa [List.append_nil]⟩

/-- **What can become an expression.**  Tokens can become an expression just if each of them stands
where it may. -/
theorem isViable_iff (ts : List Token) : IsViable ts ↔ (Place.operand.after? ts).isSome := by
  constructor
  · rintro ⟨rest, es, last, hes, hlast, heq⟩
    have hafter := congrArg Place.operand.after? heq
    rw [Place.after?_append, Place.after?_append, hes.after?] at hafter
    cases hts : Place.operand.after? ts with
    | none => simp [hts, Place.next?, hlast] at hafter
    | some p => rfl
  · intro h
    obtain ⟨p, hp⟩ := Option.isSome_iff_exists.1 h
    have hstart : Place.operand.Fits [] := fun us hus => .term (.unary hus)
    exact (hstart.after hp).isViable

/-- The token that may not stand where the others lead to is the first impossible one. -/
theorem isFirstImpossible_of_next? {before after : List Token} {u : Token} {p : Place}
    (hp : Place.operand.after? before = some p) (hu : p.next? u.kind = none) :
    IsFirstImpossible u (before ++ u :: after) := by
  refine ⟨before, after, rfl, (isViable_iff _).2 (by simp [hp]), ?_⟩
  rw [isViable_iff]
  simp [hp, hu]

end Grammar

/-! ## Where the parser gets stuck -/

namespace Expr

open Grammar

/-- Behind the tokens of a shaped tree comes an operator. -/
theorem Shaped.after? {e : Expr} (h : e.Shaped) :
    Place.operand.after? e.tokens = some .operator := by
  induction e with
  | number l =>
      obtain ⟨hsign, hnumber⟩ := h
      simp [tokens, hsign, hnumber, Place.next?]
  | ident t =>
      have hident : t.kind = .ident := h
      simp [tokens, hident, Place.next?]
  | unary t e ih =>
      obtain ⟨ht, -, he⟩ := h
      rcases ht with ht | ht <;> simp [tokens, ht, Place.next?, ih he]
  | binary t l r ihl ihr =>
      obtain ⟨⟨ht, -⟩ | ⟨ht, -⟩, hl, hr⟩ := h
      · rcases ht with ht | ht <;> simp [tokens, ht, Place.next?, ihl hl, ihr hr]
      · rcases ht with ht | ht <;> simp [tokens, ht, Place.next?, ihl hl, ihr hr]

/-- Read from the place on, the tokens lead to `found`, where an operand is due and none starts. -/
def StuckAt (p : Place) (ts : List Token) (found : Option Token) : Prop :=
  ∃ before after, ts = before ++ after ∧ p.after? before = some .operand ∧
    found = after.head? ∧ ∀ t ∈ found, Place.operand.next? t.kind = none

/-- Tokens in front that lead to the place do not matter. -/
theorem StuckAt.append {p q : Place} {us ts : List Token} {found : Option Token}
    (hus : p.after? us = some q) (h : StuckAt q ts found) : StuckAt p (us ++ ts) found := by
  obtain ⟨before, after, rfl, hbefore, hfound⟩ := h
  refine ⟨us ++ before, after, (List.append_assoc _ _ _).symm, ?_, hfound⟩
  rw [Place.after?_append, hus]
  exact hbefore

/-- Reading fails because operands are nested too deep, or it gets stuck. -/
def FailsAt (p : Place) (ts : List Token) (f : Failure) : Prop :=
  f = .tooDeep ∨ ∃ found, f = .unexpected found ∧ StuckAt p ts found

/-- Tokens in front that lead to the place do not matter. -/
theorem FailsAt.append {p q : Place} {us ts : List Token} {f : Failure}
    (hus : p.after? us = some q) (h : FailsAt q ts f) : FailsAt p (us ++ ts) f := by
  rcases h with rfl | ⟨found, rfl, hstuck⟩
  · exact .inl rfl
  · exact .inr ⟨found, rfl, hstuck.append hus⟩

/-- An operator that binds tighter than the level is followed by an operand. -/
theorem next?_operator_of_lt {level : Nat} {k : TokenKind} (h : level < k.precedence) :
    Place.operator.next? k = some .operand := by
  cases k <;> first | rfl | exact absurd h (Nat.not_lt_zero _)

/-- Only the end and the operators come behind an operand. -/
theorem next?_operator_eq_none {k : TokenKind} (h : k.precedence = 0) (hk : k ≠ .eof) :
    Place.operator.next? k = none := by
  cases k <;> first | rfl | exact absurd rfl hk | cases h

/-- Climbing fails where one of its right operands does. -/
theorem failsAt_of_climb {bound level : Nat} {left : Expr} {rest : List Token} {f : Failure}
    {operand : Nat → (ts : List Token) → Except Failure (Parsed ts.length)}
    (hfails : ∀ level ts f, level ≤ signPrecedence → operand level ts = .error f →
      FailsAt .operand ts f)
    (hreads : ∀ level ts p, level ≤ signPrecedence → operand level ts = .ok p →
      p.expr.Shaped ∧ p.expr.tokens ++ p.rest = ts)
    (h : rest.length < bound) (hf : climb operand level left rest h = .error f) :
    FailsAt .operator rest f := by
  fun_induction climb operand level left rest h with
  | case1 left h => cases hf
  | case2 left t r h hlt g hg =>
      cases hf
      have htight : t.kind.precedence ≤ signPrecedence :=
        le_trans (precedence_le t.kind) (by decide)
      have hafter : Place.operator.after? [t] = some .operand := by
        simp [next?_operator_of_lt hlt]
      exact (hfails _ _ _ htight hg).append hafter
  | case3 left t r h hlt p hp hrest _ ih =>
      have htight : t.kind.precedence ≤ signPrecedence :=
        le_trans (precedence_le t.kind) (by decide)
      obtain ⟨hshaped, htokens⟩ := hreads _ _ _ htight hp
      have hafter : Place.operator.after? (t :: p.expr.tokens) = some .operator := by
        simp [next?_operator_of_lt hlt, hshaped.after?]
      have hfail := (ih hf).append hafter
      rwa [List.cons_append, htokens] at hfail
  | case4 left t r h hge => cases hf

/-- **Where reading an operand fails.**  Unless operands are nested too deep, reading gets stuck
at a token that starts no operand, or at the end, and all tokens in front of it stand where they
may. -/
theorem failsAt_of_parseAt (depth : Nat) :
    ∀ (level : Nat) (ts : List Token) (f : Failure), level ≤ signPrecedence →
      parseAt depth level ts = .error f → FailsAt .operand ts f := by
  induction depth with
  | zero =>
      intro level ts f _ hf
      rw [parseAt] at hf
      cases hf
      exact .inl rfl
  | succ depth ih =>
      intro level ts f _ hf
      have hreads : ∀ level ts p, level ≤ signPrecedence → parseAt depth level ts = .ok p →
          p.expr.Shaped ∧ p.expr.tokens ++ p.rest = ts := fun level ts p hlevel hp =>
        have h := reads_of_parseAt depth level ts p hlevel hp
        ⟨h.shaped, h.tokens⟩
      cases ts with
      | nil =>
          rw [parseAt] at hf
          cases hf
          exact .inr ⟨none, rfl, [], [], rfl, rfl, rfl, by simp⟩
      | cons t r =>
          by_cases hnumber : t.kind = .number
          · rw [parseAt_number hnumber] at hf
            have hafter : Place.operand.after? [t] = some .operator := by
              simp [hnumber, Place.next?]
            exact (failsAt_of_climb ih hreads _ hf).append hafter
          by_cases hident : t.kind = .ident
          · rw [parseAt_ident hident] at hf
            have hafter : Place.operand.after? [t] = some .operator := by
              simp [hident, Place.next?]
            exact (failsAt_of_climb ih hreads _ hf).append hafter
          by_cases hsign : t.kind = .plus ∨ t.kind = .minus
          · have hafter : Place.operand.after? [t] = some .operand := by
              rcases hsign with hsign | hsign <;> simp [hsign, Place.next?]
            rw [parseAt_sign hsign] at hf
            split at hf
            · next g hg =>
                cases hf
                exact (ih _ _ _ le_rfl hg).append hafter
            · next p hp =>
                obtain ⟨hshaped, htokens⟩ := hreads _ _ _ le_rfl hp
                have hsigned : Place.operand.after? (t :: p.expr.tokens) = some .operator := by
                  rcases hsign with hsign | hsign <;> simp [hsign, Place.next?, hshaped.after?]
                have hfail := (failsAt_of_climb ih hreads _ hf).append hsigned
                rwa [List.cons_append, htokens] at hfail
          · rw [parseAt_other hnumber hident hsign] at hf
            cases hf
            refine .inr ⟨some t, rfl, [], t :: r, rfl, rfl, rfl, ?_⟩
            rintro u ⟨⟩
            simp [Place.next?, hnumber, hident, hsign]

end Expr

/-! ## What is said about it -/

/-- What is said about the tokens of an expression whose first impossible one is `u`. -/
def Grammar.blame (ts : List Token) (u : Token) : Bytes :=
  if ts = [] then "empty expression"
  else if u.kind = .eof then "unexpected end of expression"
  else if u.kind = .illegal then utf8 "unexpected character " ++ Text.quote u.lexeme
  else utf8 "unexpected " ++ Text.quote u.lexeme

/-- What is said about the end. -/
theorem Failure.message_unexpected_none {ts : List Token} {last : Token} (hts : ts ≠ [])
    (hlast : last.kind = .eof) : message (.unexpected none) = Grammar.blame ts last := by
  rw [Grammar.blame, if_neg hts, if_pos hlast]
  rfl

/-- What is said about a token in front of the end. -/
theorem Failure.message_unexpected_some {ts : List Token} {u : Token} (hts : ts ≠ [])
    (hu : u.kind ≠ .eof) : message (.unexpected (some u)) = Grammar.blame ts u := by
  rw [Grammar.blame, if_neg hts, if_neg hu]
  rfl

/-- Every failure is put into words. -/
theorem Failure.message_ne_nil (f : Failure) : f.message ≠ [] := by
  have happend (s : Bytes) {r : Bytes} (hr : r ≠ []) : r ++ s ≠ [] :=
    List.append_ne_nil_of_left_ne_nil hr s
  cases f with
  | expected k t => exact happend _ (happend _ (happend _ (by decide)))
  | unexpected found =>
      cases found with
      | none => decide
      | some t =>
          rw [message]
          split
          · exact happend _ (by decide)
          · exact happend _ (by decide)
  | reserved name => exact List.append_ne_nil_of_right_ne_nil _ (by decide)
  | expectedType => decide
  | detachedSign => decide
  | emptyExpression => decide
  | tooDeep => decide

open Grammar in
/-- The failure of an expression that is not nested too deep is that of its first impossible
token. -/
theorem Expr.exists_isFirstImpossible {ts : List Token} {last : Token} {f : Failure}
    (hts : ∀ t ∈ ts, t.kind ≠ .eof) (hlast : last.kind = .eof) (h : Expr.parse ts = .error f)
    (hdeep : f ≠ .tooDeep) :
    ∃ u, IsFirstImpossible u (ts ++ [last]) ∧ f.message = blame ts u := by
  have hend : Place.operand.next? last.kind = none := by simp [Place.next?, hlast]
  rw [Expr.parse] at h
  split at h
  · next hempty =>
      obtain rfl := List.isEmpty_iff.1 hempty
      cases h
      exact ⟨last, isFirstImpossible_of_next? rfl hend, rfl⟩
  · next hempty =>
      have hne : ts ≠ [] := fun h => hempty (List.isEmpty_iff.2 h)
      split at h
      · next g hg =>
          cases h
          obtain ⟨found, rfl, before, after, rfl, hbefore, rfl, hnone⟩ :=
            (failsAt_of_parseAt _ _ _ _ (Nat.zero_le _) hg).resolve_left hdeep
          cases after with
          | nil =>
              refine ⟨last, ?_, Failure.message_unexpected_none hne hlast⟩
              rw [List.append_nil]
              exact isFirstImpossible_of_next? hbefore hend
          | cons t r =>
              refine ⟨t, ?_, Failure.message_unexpected_some hne (hts t (by simp))⟩
              rw [List.append_assoc, List.cons_append]
              exact isFirstImpossible_of_next? hbefore (hnone t rfl)
      · cases h
      · next e t r hlt hp =>
          cases h
          have hreads := reads_of_parseAt _ _ _ _ (Nat.zero_le _) hp
          have htokens : e.tokens ++ t :: r = ts := hreads.tokens
          have hkind : t.kind ≠ .eof := hts t (by simp [← htokens])
          have hloose : t.kind.precedence = 0 := Nat.le_zero.1 hreads.next_le
          refine ⟨t, ?_, Failure.message_unexpected_some hne hkind⟩
          rw [← htokens, List.append_assoc, List.cons_append]
          exact isFirstImpossible_of_next? hreads.shaped.after?
            (next?_operator_eq_none hloose hkind)

namespace Statement

/-- The failure in words, and nothing if there is none. -/
def complaint : Except Failure Statement → Bytes
  | .ok _ => []
  | .error f => f.message

/-- Nothing is said just if the tokens make a statement. -/
theorem complaint_eq_nil_iff (r : Except Failure Statement) :
    complaint r = [] ↔ ∃ s, r = .ok s := by
  cases r with
  | ok s => simp [complaint]
  | error f => simp [complaint, f.message_ne_nil]

/-- The record of a parser is the complaint about its line. -/
theorem recorded_statement (number : Int) (kind : LineKind) (line body : Bytes) (ts : List Token) :
    let parsed := (Recorder.statement number kind line body ts).on []
    parsed.1 = (parse number kind line body ts).toOption ∧
      parsed.2 = complaint (parse number kind line body ts) ∧
      (parsed.2 = [] ↔ ∃ s, parsed.1 = some s) := by
  intro parsed
  have hparsed : parsed = _ := Recorder.on_statement number kind line body ts
  rw [hparsed]
  cases parse number kind line body ts with
  | ok s => simp [Except.toOption, complaint]
  | error f => simp [Except.toOption, complaint, f.message_ne_nil]

/-- **The complaint about a print line names its first impossible token.**  If the tokens of an
expression are rejected, and not for being nested too deep, there is a first one of them, or the
end behind them, after which no expression can come about, and the complaint is about that one.
Of any line something is said just if it is not read, and this is what the record of its parser has
in the end. -/
theorem complaint_parse (number : Int) (line body : Bytes) :
    (∀ (ts : List Token) (last : Token), (∀ t ∈ ts, t.kind ≠ .eof) → last.kind = .eof →
      (¬ ∃ s, parse number .print line body (ts ++ [last]) = .ok s) →
      parse number .print line body (ts ++ [last]) ≠ .error .tooDeep →
      (∃ u, Grammar.IsFirstImpossible u (ts ++ [last])) ∧
      ∀ u, Grammar.IsFirstImpossible u (ts ++ [last]) →
        complaint (parse number .print line body (ts ++ [last])) = Grammar.blame ts u) ∧
    (∀ (kind : LineKind) (ts : List Token),
      complaint (parse number kind line body ts) = [] ↔
        ∃ s, parse number kind line body ts = .ok s) ∧
    ∀ (kind : LineKind) (ts : List Token),
      let parsed := (Recorder.statement number kind line body ts).on []
      parsed.1 = (parse number kind line body ts).toOption ∧
      parsed.2 = complaint (parse number kind line body ts) ∧
      (parsed.2 = [] ↔ ∃ s, parsed.1 = some s) := by
  refine ⟨?_, fun kind ts => complaint_eq_nil_iff _, fun kind ts => recorded_statement _ _ _ _ _⟩
  intro ts last hts hlast hrejected hdeep
  cases hparse : parse number .print line body (ts ++ [last]) with
  | ok s => exact absurd ⟨s, hparse⟩ hrejected
  | error f =>
      have hexpr : Expr.parse ts = .error f := by
        rw [parse, takeWhile_append_end hts hlast] at hparse
        exact Except.map_eq_error_iff.1 hparse
      have hf : f ≠ .tooDeep := fun h => hdeep (h ▸ hparse)
      obtain ⟨u, hu, hmessage⟩ := Expr.exists_isFirstImpossible hts hlast hexpr hf
      exact ⟨⟨u, hu⟩, fun v hv => hmessage.trans (congrArg _ (hu.unique hv))⟩

/-- The tokens of `1+*2` up to the end. -/
def doubledOperator : List Token :=
  [⟨.number, "1", 1, 1⟩, ⟨.plus, "+", 1, 2⟩, ⟨.times, "*", 1, 3⟩, ⟨.number, "2", 1, 4⟩]

/-- In `1+*2` the first impossible token is the second operator. -/
theorem complaint_parse_doubledOperator :
    complaint (parse 1 .print "print(1+*2);" "1+*2" (doubledOperator ++ [⟨.eof, [], 1, 5⟩])) =
      utf8 "unexpected " ++ Text.quote "*" := by
  have hparse : parse 1 .print "print(1+*2);" "1+*2" (doubledOperator ++ [⟨.eof, [], 1, 5⟩]) =
      .error (.unexpected (some ⟨.times, "*", 1, 3⟩)) := by
    decide +kernel
  have hplace : Grammar.Place.operand.after? [⟨.number, "1", 1, 1⟩, ⟨.plus, "+", 1, 2⟩] =
      some .operand := rfl
  exact ((complaint_parse 1 "print(1+*2);" "1+*2").1 doubledOperator _ (by decide) rfl
    (by simp [hparse]) (by simp [hparse])).2 ⟨.times, "*", 1, 3⟩
    (Grammar.isFirstImpossible_of_next? hplace rfl)

end Statement

end LineCalc
