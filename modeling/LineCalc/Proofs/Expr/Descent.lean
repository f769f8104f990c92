import LineCalc.Proofs.Line.Reading
import LineCalc.Proofs.Literal
import LineCalc.Line.Step
/-!
# Evaluation by recursive descent

An expression can be computed from its tokens directly, without a tree:

    expr  = term { ("+" | "-") term }
    term  = unary { ("*" | "/") unary }
    unary = ("+" | "-") unary | number | name

This performs the very operations that evaluating the tree performs, in the same order.  Nothing is
used about the operations, so the statements are about every arithmetic.

* `Descent.run` : the value of a list of tokens by recursive descent;
* `Descent.run_tokens` : on the tokens of a shaped tree it computes what the tree does;
* `Reading.eval_eq_descent` : the two ways to compute a print line agree.
-/
namespace LineCalc

/-! ## Arithmetics -/

/-- The operations that an expression is computed with. -/
structure Arithmetic (α : Type) where
  ofValue : Value → α
  neg : α → α
  add : α → α → α
  sub : α → α → α
  mul : α → α → α
  div : α → α → α

namespace Arithmetic

variable {α : Type}

/-- The arithmetic of doubles. -/
def double : Arithmetic Double := ⟨Value.toDouble, (- ·), (· + ·), (· - ·), (· * ·), (· / ·)⟩

/-- The result of a sign; whatever is no minus changes nothing. -/
def applyUnary (A : Arithmetic α) : TokenKind → α → α
  | .minus, x => A.neg x
  | _, x => x

/-- The result of a binary operator; whatever is no sum, difference or product divides. -/
def applyBinary (A : Arithmetic α) : TokenKind → α → α → α
  | .plus, x, y => A.add x y
  | .minus, x, y => A.sub x y
  | .times, x, y => A.mul x y
  | _, x, y => A.div x y

end Arithmetic

namespace Expr

variable {α : Type}

/-- The value of a variable, or the complaint about its name. -/
def nameValue (t : Table) (name : Token) : Except Diagnostic Value :=
  match t.find? name.lexeme with
  | some v => .ok v
  | none => .error ⟨.undeclared, name, [name.lexeme]⟩

/-- The value of an expression in an arithmetic, and whether all its leaves are integers. -/
def evalIn (A : Arithmetic α) (t : Table) : Expr → Except Diagnostic (α × Bool)
  | number l => do
      let v ← Statement.literalValue (literalKind l) l
      return (A.ofValue v, v.kind == .int)
  | ident name => do
      let v ← nameValue t name
      return (A.ofValue v, v.kind == .int)
  | unary op e => do
      let r ← e.evalIn A t
      return (A.applyUnary op.kind r.1, r.2)
  | binary op l r => do
      let x ← l.evalIn A t
      let y ← r.evalIn A t
      return (A.applyBinary op.kind x.1 y.1, x.2 && y.2)

/-- Signs mean the same in the arithmetic of doubles. -/
theorem applyUnary_double (k : TokenKind) (x : Double) :
    Arithmetic.double.applyUnary k x = applyUnary k x := by
  cases k <;> rfl

/-- Binary operators mean the same in the arithmetic of doubles. -/
theorem applyBinary_double (k : TokenKind) (x y : Double) :
    Arithmetic.double.applyBinary k x y = applyBinary k x y := by
  cases k <;> rfl

/-- Evaluation is evaluation in the arithmetic of doubles. -/
theorem eval_eq_evalIn (t : Table) (e : Expr) :
    e.eval t = (e.evalIn .double t).map fun r => ⟨r.1, r.2⟩ := by
  induction e with
  | number l =>
      rw [eval, evalIn, evalLiteral, Statement.literalValue, ← literalKind]
      cases h : Value.read? (literalKind l) l.text with
      | none => rfl
      | some v =>
          rw [← Value.kind_of_read? h]
          rfl
  | ident name =>
      rw [eval, evalIn, evalName, nameValue]
      cases t.find? name.lexeme <;> rfl
  | unary op e ih =>
      rw [eval, evalIn, ih]
      cases e.evalIn .double t with
      | error d => rfl
      | ok r =>
          show Except.ok (Result.mk (applyUnary op.kind r.1) r.2) =
            .ok ⟨Arithmetic.double.applyUnary op.kind r.1, r.2⟩
          rw [applyUnary_double]
  | binary op l r ihl ihr =>
      rw [eval, evalIn, ihl, ihr]
      cases l.evalIn .double t with
      | error d => rfl
      | ok x =>
          cases r.evalIn .double t with
          | error d => rfl
          | ok y =>
              show Except.ok (Result.mk (applyBinary op.kind x.1 y.1) (x.2 && y.2)) =
                .ok ⟨Arithmetic.double.applyBinary op.kind x.1 y.1, x.2 && y.2⟩
              rw [applyBinary_double]

/-- Whether an expression has a value, and whether it counts as an integer, does not depend on the
arithmetic. -/
theorem evalIn_ok {β : Type} (A : Arithmetic α) (B : Arithmetic β) (t : Table) (e : Expr) :
    ∀ {x : α} {b : Bool}, e.evalIn A t = .ok (x, b) → ∃ y, e.evalIn B t = .ok (y, b) := by
  induction e with
  | number l =>
      intro x b h
      obtain ⟨v, hv, hb⟩ := Except.bind_eq_ok_iff.1 h
      cases hb
      exact ⟨B.ofValue v, Except.bind_eq_ok_iff.2 ⟨v, hv, rfl⟩⟩
  | ident name =>
      intro x b h
      obtain ⟨v, hv, hb⟩ := Except.bind_eq_ok_iff.1 h
      cases hb
      exact ⟨B.ofValue v, Except.bind_eq_ok_iff.2 ⟨v, hv, rfl⟩⟩
  | unary op e ih =>
      intro x b h
      obtain ⟨r, hr, hb⟩ := Except.bind_eq_ok_iff.1 h
      cases hb
      obtain ⟨y, hy⟩ := ih hr
      exact ⟨_, Except.bind_eq_ok_iff.2 ⟨_, hy, rfl⟩⟩
  | binary op l r ihl ihr =>
      intro x b h
      obtain ⟨xl, hl, h⟩ := Except.bind_eq_ok_iff.1 h
      obtain ⟨xr, hr, hb⟩ := Except.bind_eq_ok_iff.1 h
      cases hb
      obtain ⟨yl, hyl⟩ := ihl hl
      obtain ⟨yr, hyr⟩ := ihr hr
      exact ⟨_, Except.bind_eq_ok_iff.2 ⟨_, hyl, Except.bind_eq_ok_iff.2 ⟨_, hyr, rfl⟩⟩⟩

end Expr

/-! ## Recursive descent -/

/-- What descending has computed from the tokens in front of `rest`, and whether all leaves so far
are integers. -/
structure Descent (α : Type) where
  value : α
  isInteger : Bool
  rest : List Token

namespace Descent

variable {α : Type}

/-- The integer that a text writes, taken to the nearest that there is; zero if it writes none. -/
def readIntOr (s : Bytes) : Int64 :=
  let (negative, ds) := splitSign s
  if ds.isEmpty || !ds.all Bytes.isDigit then 0
  else Int64.ofInt (max (-2 ^ (63 : Nat))
    (min (Double.signed negative (Bytes.toNat ds)) (2 ^ (63 : Nat) - 1)))

/-- The double that a token writes; a number too large for one is infinite, and what is no number is
zero. -/
def readDoubleOr (t : Token) : Double :=
  (readDouble? t.lexeme).getD (if t.kind = .number then .infinity false else .zero)

/-- The value of a token that is neither sign nor name. -/
def numeral (t : Token) : Value :=
  if t.lexeme.any (· == 0x2e) then .double (readDoubleOr t) else .int (readIntOr t.lexeme)

/-- `unary = ("+" | "-") unary | number | name`.  A name that is not declared is zero.  The end is
not passed. -/
def unary (A : Arithmetic α) (t : Table) (isInteger : Bool) : List Token → Descent α
  | [] => ⟨A.ofValue (.int 0), isInteger, []⟩
  | token :: rest =>
      match token.kind with
      | .minus =>
          let d := unary A t isInteger rest
          { d with value := A.neg d.value }
      | .plus => unary A t isInteger rest
      | .ident =>
          let v := (t.find? token.lexeme).getD (.int 0)
          ⟨A.ofValue v, isInteger && v.kind == .int, rest⟩
      | .eof =>
          ⟨A.ofValue (numeral token), isInteger && (numeral token).kind == .int, token :: rest⟩
      | _ => ⟨A.ofValue (numeral token), isInteger && (numeral token).kind == .int, rest⟩

/-- Descending never adds tokens. -/
theorem unary_rest_length_le (A : Arithmetic α) (t : Table) (isInteger : Bool) (ts : List Token) :
    (unary A t isInteger ts).rest.length ≤ ts.length := by
  induction ts with
  | nil => exact le_rfl
  | cons token rest ih =>
      rw [unary]
      split <;> simp <;> omega

/-- `{ ("*" | "/") unary }` behind a value. -/
def factors (A : Arithmetic α) (t : Table) (x : α) (isInteger : Bool) : List Token → Descent α
  | [] => ⟨x, isInteger, []⟩
  | op :: rest =>
      if op.kind = .times ∨ op.kind = .slash then
        let d := unary A t isInteger rest
        factors A t (if op.kind = .times then A.mul x d.value else A.div x d.value) d.isInteger
          d.rest
      else ⟨x, isInteger, op :: rest⟩
termination_by ts => ts.length
decreasing_by exact Nat.lt_succ_of_le (unary_rest_length_le A t isInteger rest)

/-- `term = unary { ("*" | "/") unary }`. -/
def term (A : Arithmetic α) (t : Table) (isInteger : Bool) (ts : List Token) : Descent α :=
  let d := unary A t isInteger ts
  factors A t d.value d.isInteger d.rest

/-- Factors never add tokens. -/
theorem factors_rest_length_le (A : Arithmetic α) (t : Table) (x : α) (isInteger : Bool)
    (ts : List Token) : (factors A t x isInteger ts).rest.length ≤ ts.length := by
  fun_induction factors A t x isInteger ts with
  | case1 => exact le_rfl
  | case2 x isInteger op rest hop d ih =>
      have := unary_rest_length_le A t isInteger rest
      exact le_trans ih (Nat.le_succ_of_le this)
  | case3 => exact le_rfl

/-- A term never adds tokens. -/
theorem term_rest_length_le (A : Arithmetic α) (t : Table) (isInteger : Bool) (ts : List Token) :
    (term A t isInteger ts).rest.length ≤ ts.length :=
  le_trans (factors_rest_length_le _ _ _ _ _) (unary_rest_length_le A t isInteger ts)

/-- `{ ("+" | "-") term }` behind a value. -/
def summands (A : Arithmetic α) (t : Table) (x : α) (isInteger : Bool) : List Token → Descent α
  | [] => ⟨x, isInteger, []⟩
  | op :: rest =>
      if op.kind = .plus ∨ op.kind = .minus then
        let d := term A t isInteger rest
        summands A t (if op.kind = .plus then A.add x d.value else A.sub x d.value) d.isInteger
          d.rest
      else ⟨x, isInteger, op :: rest⟩
termination_by ts => ts.length
decreasing_by exact Nat.lt_succ_of_le (term_rest_length_le A t isInteger rest)

/-- `expr = term { ("+" | "-") term }`. -/
def expr (A : Arithmetic α) (t : Table) (isInteger : Bool) (ts : List Token) : Descent α :=
  let d := term A t isInteger ts
  summands A t d.value d.isInteger d.rest

/-- Descending from the start: no leaf was seen yet that is no integer. -/
def run (A : Arithmetic α) (t : Table) (ts : List Token) : Descent α := expr A t true ts

/-! ## Descending along a tree -/

/-- An integer that can be read is the one that the text writes. -/
theorem readIntOr_of_readInt? {s : Bytes} {i : Int64} (h : readInt? s = some i) :
    readIntOr s = i := by
  unfold readInt? at h
  unfold readIntOr
  generalize splitSign s = p at h ⊢
  obtain ⟨negative, ds⟩ := p
  simp only at h ⊢
  split at h
  · cases h
  · next hds =>
      split at h
      · next hrange =>
          rw [if_neg hds, Int.min_eq_left (by omega), Int.max_eq_right hrange.1]
          exact Option.some.inj h
      · cases h

/-- A literal that can be read is the value that its token writes. -/
theorem numeral_of_read? {n : Token} {v : Value}
    (h : Value.read? (Expr.literalKind ⟨none, n⟩) n.lexeme = some v) : numeral n = v := by
  unfold Expr.literalKind at h
  unfold numeral
  show (if (Literal.mk none n).isFractional then _ else _) = v
  cases hf : (Literal.mk none n).isFractional with
  | true =>
      rw [hf] at h
      obtain ⟨d, hd, rfl⟩ := Option.map_eq_some_iff.1 h
      simp [readDoubleOr, hd]
  | false =>
      rw [hf] at h
      obtain ⟨i, hi, rfl⟩ := Option.map_eq_some_iff.1 h
      simp [readIntOr_of_readInt? hi]

variable {A : Arithmetic α} {t : Table}

/-- Without binary operators a tree is a unary expression. -/
theorem unary_tokens (e : Expr) (rest : List Token) : e.Shaped → e.isBinary = false →
    ∀ {x : α} {b : Bool} (isInteger : Bool), e.evalIn A t = .ok (x, b) →
      unary A t isInteger (e.tokens ++ rest) = ⟨x, isInteger && b, rest⟩ := by
  induction e with
  | number l =>
      rintro ⟨hsign, hkind⟩ - x b isInteger h
      obtain ⟨sign, n⟩ := l
      cases hsign
      obtain ⟨v, hv, hb⟩ := Except.bind_eq_ok_iff.1 h
      cases hb
      rw [Statement.literalValue] at hv
      split at hv
      -- a literal with a value is in range, so its nearest value is that one
      · next w hw =>
          cases hv
          simp only at hkind
          simp [Expr.tokens, unary, hkind, numeral_of_read? hw]
      · cases hv
  | ident name =>
      rintro hkind - x b isInteger h
      obtain ⟨v, hv, hb⟩ := Except.bind_eq_ok_iff.1 h
      cases hb
      rw [Expr.nameValue] at hv
      split at hv
      · next w hw =>
          cases hv
          have hkind : name.kind = .ident := hkind
          simp [Expr.tokens, unary, hkind, hw]
      · cases hv
  | unary op e ih =>
      rintro ⟨hop, hatom, hshaped⟩ - x b isInteger h
      obtain ⟨r, hr, hb⟩ := Except.bind_eq_ok_iff.1 h
      cases hb
      have hd := ih hshaped hatom isInteger hr
      rcases hop with hop | hop <;>
        simp [Expr.tokens, unary, hop, hd, Arithmetic.applyUnary]
  | binary op l r ihl ihr =>
      rintro - hbin
      cases hbin

/-- A tree that is no sum is a term; what comes behind it goes on from there. -/
theorem term_tokens (e : Expr) : e.Shaped → e.isSum = false →
    ∀ {x : α} {b : Bool} (isInteger : Bool) (rest : List Token), e.evalIn A t = .ok (x, b) →
      term A t isInteger (e.tokens ++ rest) = factors A t x (isInteger && b) rest := by
  -- the induction is along the left operands; the right one of a product is a unary expression
  induction e with
  | binary op l r ihl _ =>
      rintro ⟨hop, hl, hr⟩ hsum x b isInteger rest h
      obtain ⟨hop, hlsum, hratom⟩ : (op.kind = .times ∨ op.kind = .slash) ∧ l.isSum = false ∧
          r.isBinary = false := by
        refine hop.resolve_left ?_
        rintro ⟨hop | hop, -⟩ <;> simp [Expr.isSum, hop] at hsum
      obtain ⟨xl, hxl, h⟩ := Except.bind_eq_ok_iff.1 h
      obtain ⟨xr, hxr, hb⟩ := Except.bind_eq_ok_iff.1 h
      cases hb
      have hsplit : (Expr.binary op l r).tokens ++ rest =
          l.tokens ++ op :: (r.tokens ++ rest) := by simp [Expr.tokens]
      rw [hsplit, ihl hl hlsum isInteger _ hxl, factors, if_pos hop,
        unary_tokens r rest hr hratom _ hxr]
      rcases hop with hop | hop <;> simp [hop, Arithmetic.applyBinary, Bool.and_assoc]
  | number l =>
      intro hshaped _ x b isInteger rest h
      rw [term, unary_tokens _ rest hshaped rfl isInteger h]
  | ident name =>
      intro hshaped _ x b isInteger rest h
      rw [term, unary_tokens _ rest hshaped rfl isInteger h]
  | unary op e _ =>
      intro hshaped _ x b isInteger rest h
      rw [term, unary_tokens _ rest hshaped rfl isInteger h]

/-- Factors end in front of a token that is no operator of products. -/
theorem factors_of_nextPrecedence {x : α} {isInteger : Bool} {rest : List Token}
    (h : Expr.nextPrecedence rest < 2) : factors A t x isInteger rest = ⟨x, isInteger, rest⟩ := by
  cases rest with
  | nil => rw [factors]
  | cons op r =>
      rw [factors, if_neg]
      rw [← Expr.precedence_eq_two_iff]
      exact Nat.ne_of_lt h

/-- Summands end in front of a token that is no operator. -/
theorem summands_of_nextPrecedence {x : α} {isInteger : Bool} {rest : List Token}
    (h : Expr.nextPrecedence rest = 0) : summands A t x isInteger rest = ⟨x, isInteger, rest⟩ := by
  cases rest with
  | nil => rw [summands]
  | cons op r =>
      have hop : op.kind.precedence = 0 := h
      rw [summands, if_neg]
      rw [← Expr.precedence_eq_one_iff]
      omega

/-- A shaped tree is an expression; sums and differences behind it go on from there. -/
theorem expr_tokens (e : Expr) : e.Shaped →
    ∀ {x : α} {b : Bool} (isInteger : Bool) (rest : List Token), e.evalIn A t = .ok (x, b) →
      Expr.nextPrecedence rest < 2 →
      expr A t isInteger (e.tokens ++ rest) = summands A t x (isInteger && b) rest := by
  -- the induction is along the left operands of sums; every other tree is a term
  induction e with
  | binary op l r ihl _ =>
      intro hshaped x b isInteger rest h hrest
      cases hsum : (Expr.binary op l r).isSum with
      | false => rw [expr, term_tokens _ hshaped hsum isInteger rest h,
          factors_of_nextPrecedence hrest]
      | true =>
          obtain ⟨hop, hl, hr⟩ := hshaped
          have hkind : op.kind = .plus ∨ op.kind = .minus := by simpa [Expr.isSum] using hsum
          have hrsum : r.isSum = false := by
            rcases hop with hop | ⟨hop, -⟩
            · exact hop.2
            · rcases hkind with hkind | hkind <;> simp [hkind] at hop
          obtain ⟨xl, hxl, h⟩ := Except.bind_eq_ok_iff.1 h
          obtain ⟨xr, hxr, hb⟩ := Except.bind_eq_ok_iff.1 h
          cases hb
          have hsplit : (Expr.binary op l r).tokens ++ rest =
              l.tokens ++ op :: (r.tokens ++ rest) := by simp [Expr.tokens]
          have hnext : Expr.nextPrecedence (op :: (r.tokens ++ rest)) < 2 := by
            rw [Expr.nextPrecedence, (Expr.precedence_eq_one_iff _).2 hkind]
            exact Nat.one_lt_two
          rw [hsplit, ihl hl isInteger _ hxl hnext, summands, if_pos hkind,
            term_tokens r hr hrsum _ rest hxr, factors_of_nextPrecedence hrest]
          rcases hkind with hkind | hkind <;> simp [hkind, Arithmetic.applyBinary, Bool.and_assoc]
  | number l =>
      intro hshaped x b isInteger rest h hrest
      rw [expr, term_tokens _ hshaped rfl isInteger rest h, factors_of_nextPrecedence hrest]
  | ident name =>
      intro hshaped x b isInteger rest h hrest
      rw [expr, term_tokens _ hshaped rfl isInteger rest h, factors_of_nextPrecedence hrest]
  | unary op e _ =>
      intro hshaped x b isInteger rest h hrest
      rw [expr, term_tokens _ hshaped rfl isInteger rest h, factors_of_nextPrecedence hrest]

/-- **Descending computes what the tree does.**  On the tokens of a shaped tree, up to an end that
is no operator, it performs the operations of the tree. -/
theorem run_tokens {e : Expr} {x : α} {b : Bool} {rest : List Token} (he : e.Shaped)
    (h : e.evalIn A t = .ok (x, b)) (hrest : Expr.nextPrecedence rest = 0) :
    run A t (e.tokens ++ rest) = ⟨x, b, rest⟩ := by
  rw [run, expr_tokens e he true rest h (by omega), summands_of_nextPrecedence hrest,
    Bool.true_and]

end Descent

/-! ## Print lines -/

namespace Reading

/-- The tokens of a print line are those of its expression and the end. -/
theorem exists_tokens_eq {lenient : Bool} {number : Int} {line : Bytes} {keyword : Token}
    {source body : Bytes} {e : Expr}
    (h : (ofLine lenient number line).outcome = .ok (.print keyword source body (some e))) :
    e.Shaped ∧ ∃ last : Token, last.kind = .eof ∧
      (ofLine lenient number line).tokens = e.tokens ++ [last] := by
  rw [outcome_eq_ok_iff] at h
  cases hkind : LineKind.ofLine line with
  | declaration =>
      rw [hkind] at h
      obtain ⟨type, name, value, heq, -⟩ := h
      cases heq
  | assignment =>
      rw [hkind] at h
      obtain ⟨name, value, heq, -⟩ := h
      cases heq
  | print =>
      rw [hkind] at h
      obtain ⟨body', e', hbody, heq, htree⟩ := h
      cases heq
      obtain ⟨⟨last, hlast, hscan⟩, -⟩ := exists_scan_eq lenient number .print line body
      refine ⟨htree.shaped, last, hlast, ?_⟩
      rw [htree.tokens, ← hscan, ofLine, hkind]
      simp only [hbody, ofKind]

/-- **The two ways to compute a print line agree.**  Whatever the operations are, if the tree of
the line has a value, descending along the tokens of the line computes that value by the same
operations, finds the same leaves to be integers, and stops at the end of the line. -/
theorem eval_eq_descent (t : Table) (lenient : Bool) (number : Int) (line : Bytes)
    (keyword : Token) (source body : Bytes) (e : Expr) (r : Result)
    (hread : (ofLine lenient number line).outcome = .ok (.print keyword source body (some e)))
    (heval : e.eval t = .ok r) :
    ∃ last : Token, last.kind = .eof ∧
      Descent.run .double t (ofLine lenient number line).tokens =
        ⟨r.value, r.isInteger, [last]⟩ ∧
      ∀ (α : Type) (A : Arithmetic α), ∃ x, e.evalIn A t = .ok (x, r.isInteger) ∧
        Descent.run A t (ofLine lenient number line).tokens = ⟨x, r.isInteger, [last]⟩ := by
  obtain ⟨hshaped, last, hlast, htokens⟩ := exists_tokens_eq hread
  rw [Expr.eval_eq_evalIn] at heval
  obtain ⟨⟨y, b⟩, hy, rfl⟩ := Except.map_eq_ok_iff.1 heval
  have hend : Expr.nextPrecedence [last] = 0 := by rw [Expr.nextPrecedence, hlast]; rfl
  rw [htokens]
  refine ⟨last, hlast, Descent.run_tokens hshaped hy hend, ?_⟩
  intro α A
  obtain ⟨x, hx⟩ := Expr.evalIn_ok .double A t e hy
  exact ⟨x, hx, Descent.run_tokens hshaped hx hend⟩

/-- `1-2*-x` is seven if `x` is three, by descent as by the tree. -/
theorem descent_sum_of_product :
    ∃ last : Token, last.kind = .eof ∧
      Descent.run .double ⟨[⟨"x", .int 3, 1⟩], by simp⟩
        (ofLine false 2 "print(1-2*-x);").tokens = ⟨.ofInt 7, true, [last]⟩ := by
  have hread : (ofLine false 2 "print(1-2*-x);").outcome =
      .ok (.print ⟨.ident, "print", 2, 1⟩ "print(1-2*-x);" "1-2*-x" (some
        (.binary ⟨.minus, "-", 2, 2⟩ (.number ⟨none, ⟨.number, "1", 2, 1⟩⟩)
          (.binary ⟨.times, "*", 2, 4⟩ (.number ⟨none, ⟨.number, "2", 2, 3⟩⟩)
            (.unary ⟨.minus, "-", 2, 5⟩ (.ident ⟨.ident, "x", 2, 6⟩)))))) := by
    decide +kernel
  have heval : (Expr.binary ⟨.minus, "-", 2, 2⟩ (.number ⟨none, ⟨.number, "1", 2, 1⟩⟩)
      (.binary ⟨.times, "*", 2, 4⟩ (.number ⟨none, ⟨.number, "2", 2, 3⟩⟩)
        (.unary ⟨.minus, "-", 2, 5⟩ (.ident ⟨.ident, "x", 2, 6⟩)))).eval
      (⟨[⟨"x", .int 3, 1⟩], by simp⟩ : Table) = .ok ⟨.ofInt 7, true⟩ := by
    decide +kernel
  obtain ⟨last, hlast, hrun, -⟩ := eval_eq_descent _ _ _ _ _ _ _ _ _ hread heval
  dsimp only at hrun
  exact ⟨last, hlast, hrun⟩

end Reading

end LineCalc
