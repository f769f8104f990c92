import LineCalc.Proofs.Except
import LineCalc.Proofs.Statement.Grammar
import LineCalc.Line.Reading
/-!
# Statements on other lines

The line of a text shows in its tokens and nowhere else: the same text on another line has the same
tokens, on that line, and they are read as the same statement, with all its tokens there.

* `Token.scan_onLine` : scanning;
* `Expr.parse_onLine` : reading an expression, or failing at the same token;
* `Statement.parse_onLine` : reading a statement.
-/
namespace LineCalc

/-! ## Moving to a line -/

/-- The token on the given line, at its column. -/
def Token.onLine (n : Int) (t : Token) : Token := { t with line := n }

/-- The literal on the given line. -/
def Literal.onLine (n : Int) (l : Literal) : Literal :=
  ⟨l.sign.map (Token.onLine n), l.number.onLine n⟩

/-- A literal has the same text on every line. -/
@[simp]
theorem Literal.text_onLine (n : Int) (l : Literal) : (l.onLine n).text = l.text := by
  obtain ⟨sign, number⟩ := l
  cases sign with
  | none => rfl
  | some s => rfl

/-- The first token of a literal is on its line. -/
@[simp]
theorem Literal.token_onLine (n : Int) (l : Literal) : (l.onLine n).token = l.token.onLine n := by
  obtain ⟨sign, number⟩ := l
  cases sign with
  | none => rfl
  | some s => rfl

/-- The tree on the given line. -/
def Expr.onLine (n : Int) : Expr → Expr
  | number l => number (l.onLine n)
  | ident t => ident (t.onLine n)
  | unary t e => unary (t.onLine n) (e.onLine n)
  | binary t l r => binary (t.onLine n) (l.onLine n) (r.onLine n)

/-- The failure on the given line. -/
def Failure.onLine (n : Int) : Failure → Failure
  | expected kind found => expected kind (found.map (Token.onLine n))
  | unexpected found => unexpected (found.map (Token.onLine n))
  | f => f

/-- A failure is told in the same words on every line. -/
@[simp]
theorem Failure.message_onLine (n : Int) (f : Failure) : (f.onLine n).message = f.message := by
  cases f with
  | expected kind found => cases found <;> rfl
  | unexpected found => cases found <;> rfl
  | expectedType => rfl
  | reserved name => rfl
  | detachedSign => rfl
  | emptyExpression => rfl
  | tooDeep => rfl

/-- The statement on the given line. -/
def Statement.onLine (n : Int) : Statement → Statement
  | declaration type name value =>
      declaration (type.onLine n) (name.onLine n) (value.map (Literal.onLine n))
  | assignment name value => assignment (name.onLine n) (value.onLine n)
  | print keyword line body value => print (keyword.onLine n) line body (value.map (Expr.onLine n))

/-- What is moved to a line may have been on any other. -/
theorem Literal.onLine_onLine (m n : Int) (l : Literal) : (l.onLine m).onLine n = l.onLine n := by
  obtain ⟨sign, number⟩ := l
  cases sign with
  | none => rfl
  | some s => rfl

/-- The same of trees. -/
theorem Expr.onLine_onLine (m n : Int) (e : Expr) : (e.onLine m).onLine n = e.onLine n := by
  induction e with
  | number l => exact congrArg number (l.onLine_onLine m n)
  | ident t => rfl
  | unary t e ih => exact congrArg (unary (t.onLine n)) ih
  | binary t l r ihl ihr => exact congrArg₂ (binary (t.onLine n)) ihl ihr

/-- The same of statements. -/
theorem Statement.onLine_onLine (m n : Int) (s : Statement) :
    (s.onLine m).onLine n = s.onLine n := by
  cases s with
  | declaration type name value =>
      cases value with
      | none => rfl
      | some l => exact congrArg (declaration _ _ <| some ·) (l.onLine_onLine m n)
  | assignment name value => exact congrArg (assignment _) (value.onLine_onLine m n)
  | print keyword line body value =>
      cases value with
      | none => rfl
      | some e => exact congrArg (print _ line body <| some ·) (e.onLine_onLine m n)

/-- The failure is the same, on the line `n`. -/
def Failure.OnLine (n : Int) (f f' : Failure) : Prop := f' = f.onLine n

/-! ## Scanning -/

namespace Cursor

/-- The cursor on the given line. -/
def onLine (n : Int) (c : Cursor) : Cursor := { c with line := n }

/-- The next token is on the line of the cursor. -/
theorem next_onLine (n : Int) (c : Cursor) :
    (c.onLine n).next = (c.next.1.onLine n, c.next.2.onLine n) := by
  have hskip : (c.onLine n).skip = c.skip.onLine n := rfl
  have hrest : (c.skip.onLine n).rest = c.skip.rest := rfl
  simp only [next, hskip, hrest]
  cases c.skip.rest with
  | nil => rfl
  | cons b r => rfl

/-- All tokens are. -/
theorem tokens_onLine (n : Int) (c : Cursor) :
    (c.onLine n).tokens = c.tokens.map (Token.onLine n) := by
  have hkind : ∀ c : Cursor, (c.onLine n).next.1.kind = c.next.1.kind := by
    intro c
    rw [next_onLine]
    rfl
  fun_induction tokens c with
  | case1 c h => rw [tokens, dif_pos ((hkind c).trans h), next_onLine, List.map_singleton]
  | case2 c h ih =>
      rw [tokens, dif_neg (by rw [hkind c]; exact h), next_onLine, List.map_cons, ih]

end Cursor

/-- The tokens of a text are the same on every line. -/
theorem Token.scan_onLine (m n : Int) (s : Bytes) :
    Token.scan n s = (Token.scan m s).map (Token.onLine n) :=
  Cursor.tokens_onLine n ⟨m, 1, s⟩

/-! ## Expressions -/

namespace Expr

/-- The same expression was read, on the line `n`, and the same tokens are left. -/
def ParsedOnLine (n : Int) {bound bound' : Nat} (p : Parsed bound) (p' : Parsed bound') : Prop :=
  p'.expr = p.expr.onLine n ∧ p'.rest = p.rest.map (Token.onLine n)

/-- Climbing reads the same on every line, if the operands do. -/
theorem climb_onLine {n : Int} {bound bound' level : Nat} {left : Expr} {rest : List Token}
    {operand : Nat → (ts : List Token) → Except Failure (Parsed ts.length)}
    (hoperand : ∀ level ts, Except.Matches (Failure.OnLine n) (ParsedOnLine n)
      (operand level ts) (operand level (ts.map (Token.onLine n))))
    (h : rest.length < bound) (h' : (rest.map (Token.onLine n)).length < bound') :
    Except.Matches (Failure.OnLine n) (ParsedOnLine n) (climb operand level left rest h)
      (climb operand level (left.onLine n) (rest.map (Token.onLine n)) h') := by
  fun_induction climb operand level left rest h with
  | case1 left h =>
      rw [climb_of_le h' (Nat.zero_le _)]
      exact .ok ⟨rfl, rfl⟩
  | case2 left t r h hlt f hf =>
      have hr := hoperand t.kind.precedence r
      rw [hf] at hr
      obtain ⟨f', hf', hfail⟩ := hr.of_error
      simp only [List.map_cons]
      rw [climb, if_pos (show level < (t.onLine n).kind.precedence from hlt)]
      simp only [show (t.onLine n).kind = t.kind from rfl, hf']
      exact .error hfail
  | case3 left t r h hlt q hq hqr _ ih =>
      have hr := hoperand t.kind.precedence r
      rw [hq] at hr
      obtain ⟨⟨e', rest', hlt'⟩, hq', hread⟩ := hr.of_ok
      obtain ⟨rfl, rfl⟩ : e' = q.expr.onLine n ∧ rest' = q.rest.map (Token.onLine n) := hread
      have hbound : (q.rest.map (Token.onLine n)).length < bound' := by
        simp only [List.map_cons, List.length_cons] at h'
        omega
      simp only [List.map_cons]
      rw [climb_cons_of_lt (p := ⟨_, _, hlt'⟩) h' hlt hq' hbound]
      exact ih hbound
  | case4 left t r h hge =>
      rw [climb_of_le h' (Nat.not_lt.1 hge)]
      exact .ok ⟨rfl, rfl⟩

/-- **Expressions are read the same on every line**, or fail at the same token. -/
theorem parseAt_onLine (n : Int) (depth : Nat) : ∀ (level : Nat) (ts : List Token),
    Except.Matches (Failure.OnLine n) (ParsedOnLine n)
      (parseAt depth level ts) (parseAt depth level (ts.map (Token.onLine n))) := by
  induction depth with
  | zero =>
      intro level ts
      rw [parseAt, parseAt]
      exact .error rfl
  | succ depth ih =>
      intro level ts
      cases ts with
      | nil =>
          rw [List.map_nil, parseAt]
          exact .error rfl
      | cons t r =>
          rw [List.map_cons]
          by_cases hnumber : t.kind = .number
          · rw [parseAt_number hnumber, parseAt_number (t := t.onLine n) hnumber]
            exact climb_onLine ih _ _
          by_cases hident : t.kind = .ident
          · rw [parseAt_ident hident, parseAt_ident (t := t.onLine n) hident]
            exact climb_onLine ih _ _
          by_cases hsign : t.kind = .plus ∨ t.kind = .minus
          · rw [parseAt_sign hsign, parseAt_sign (t := t.onLine n) hsign]
            have hr := ih signPrecedence r
            generalize parseAt depth signPrecedence r = x at hr
            generalize parseAt depth signPrecedence (r.map (Token.onLine n)) = x' at hr
            cases hr with
            | error hfail => exact .error hfail
            | @ok q q' hread =>
                obtain ⟨e', rest', hlt'⟩ := q'
                obtain ⟨rfl, rfl⟩ : e' = q.expr.onLine n ∧ rest' = q.rest.map (Token.onLine n) :=
                  hread
                exact climb_onLine ih _ _
          · rw [parseAt_other hnumber hident hsign,
              parseAt_other (t := t.onLine n) hnumber hident hsign]
            exact .error rfl

/-- The same of whole expressions. -/
theorem parse_onLine (n : Int) (ts : List Token) :
    Except.Matches (Failure.OnLine n) (fun e e' => e' = e.onLine n)
      (parse ts) (parse (ts.map (Token.onLine n))) := by
  rw [parse, parse, List.isEmpty_map]
  split
  · exact .error rfl
  · have hread := parseAt_onLine n nestingLimit 0 ts
    generalize parseAt nestingLimit 0 ts = x at hread
    generalize parseAt nestingLimit 0 (ts.map (Token.onLine n)) = x' at hread
    cases hread with
    | error hfail => exact .error hfail
    | @ok p p' hp =>
        obtain ⟨e, rest, hlt⟩ := p
        obtain ⟨e', rest', hlt'⟩ := p'
        obtain ⟨rfl, rfl⟩ : e' = e.onLine n ∧ rest' = rest.map (Token.onLine n) := hp
        cases rest with
        | nil => exact .ok rfl
        | cons t r => exact .error rfl

end Expr

/-! ## Statements -/

namespace Statement

variable {n : Int}

/-- What was read is the same on the line `n`, and the same tokens are left. -/
def PairOnLine {α : Type} (f : α → α) (n : Int) (p p' : α × List Token) : Prop :=
  p'.1 = f p.1 ∧ p'.2 = p.2.map (Token.onLine n)

/-- A token of a given kind is expected on every line. -/
theorem expect_onLine (n : Int) (kind : TokenKind) (ts : List Token) :
    Except.Matches (Failure.OnLine n) (PairOnLine (Token.onLine n) n)
      (expect kind ts) (expect kind (ts.map (Token.onLine n))) := by
  cases ts with
  | nil => exact .error rfl
  | cons t r =>
      rw [List.map_cons, expect, expect, show (t.onLine n).kind = t.kind from rfl]
      split
      · exact .ok ⟨rfl, rfl⟩
      · exact .error rfl

/-- The end is expected on every line. -/
theorem expectEnd_onLine (n : Int) (ts : List Token) :
    Except.Matches (Failure.OnLine n) (fun _ _ => True)
      (expectEnd ts) (expectEnd (ts.map (Token.onLine n))) := by
  cases ts with
  | nil => exact .ok trivial
  | cons t r => exact .error rfl

/-- Literals are read the same on every line. -/
theorem parseLiteral_onLine (n : Int) (ts : List Token) :
    Except.Matches (Failure.OnLine n) (PairOnLine (Literal.onLine n) n)
      (parseLiteral ts) (parseLiteral (ts.map (Token.onLine n))) := by
  cases ts with
  | nil => exact .error rfl
  | cons t r =>
      rw [List.map_cons, parseLiteral, parseLiteral, show (t.onLine n).kind = t.kind from rfl]
      split
      · exact .ok ⟨rfl, rfl⟩
      · split
        · have hnumber := expect_onLine n .number r
          generalize expect .number r = x at hnumber
          generalize expect .number (r.map (Token.onLine n)) = x' at hnumber
          cases hnumber with
          | error hfail => exact .error hfail
          | @ok p p' hp =>
              obtain ⟨u, r₁⟩ := p
              obtain ⟨u', r₁'⟩ := p'
              obtain ⟨rfl, rfl⟩ : u' = u.onLine n ∧ r₁' = r₁.map (Token.onLine n) := hp
              show Except.Matches _ _ (if u.column = t.column + 1 then _ else _)
                (if u.column = t.column + 1 then _ else _)
              split
              · exact .ok ⟨rfl, rfl⟩
              · exact .error rfl
        · exact .error rfl

/-- So are initial values. -/
theorem parseInitial_onLine (n : Int) (ts : List Token) :
    Except.Matches (Failure.OnLine n) (PairOnLine (Option.map (Literal.onLine n)) n)
      (parseInitial ts) (parseInitial (ts.map (Token.onLine n))) := by
  cases ts with
  | nil => exact .ok ⟨rfl, rfl⟩
  | cons t r =>
      rw [List.map_cons, parseInitial, parseInitial, show (t.onLine n).kind = t.kind from rfl]
      split
      · refine (parseLiteral_onLine n r).map ?_
        rintro ⟨l, r₁⟩ ⟨l', r₁'⟩ ⟨hl, hr⟩
        exact ⟨congrArg some hl, hr⟩
      · exact .ok ⟨rfl, rfl⟩

/-- So are declarations. -/
theorem parseDeclaration_onLine (n : Int) (ts : List Token) :
    Except.Matches (Failure.OnLine n) (fun s s' => s' = s.onLine n)
      (parseDeclaration ts) (parseDeclaration (ts.map (Token.onLine n))) := by
  cases ts with
  | nil => exact .error rfl
  | cons t r =>
      rw [List.map_cons, parseDeclaration, parseDeclaration,
        show (t.onLine n).kind = t.kind from rfl, show (t.onLine n).lexeme = t.lexeme from rfl]
      split
      · refine (expect_onLine n .ident r).bind ?_
        rintro ⟨name, r₁⟩ ⟨_, _⟩ ⟨rfl, rfl⟩
        show Except.Matches _ _ (if isReserved name.lexeme then _ else _)
          (if isReserved name.lexeme then _ else _)
        split
        · exact .error rfl
        · refine (parseInitial_onLine n r₁).bind ?_
          rintro ⟨value, r₂⟩ ⟨_, _⟩ ⟨rfl, rfl⟩
          refine (expect_onLine n .semicolon r₂).bind ?_
          rintro ⟨closing, r₃⟩ ⟨_, _⟩ ⟨rfl, rfl⟩
          refine (expectEnd_onLine n r₃).bind ?_
          rintro _ _ -
          exact .ok rfl
      · exact .error rfl

/-- So are the right sides of assignments. -/
theorem parseSource_onLine (n : Int) (ts : List Token) :
    Except.Matches (Failure.OnLine n) (PairOnLine (Expr.onLine n) n)
      (parseSource ts) (parseSource (ts.map (Token.onLine n))) := by
  cases ts with
  | nil => exact .error rfl
  | cons t r =>
      rw [List.map_cons, parseSource, parseSource, show (t.onLine n).kind = t.kind from rfl]
      split
      · exact .ok ⟨rfl, rfl⟩
      · refine (parseLiteral_onLine n (t :: r)).map ?_
        rintro ⟨l, r₁⟩ ⟨l', r₁'⟩ ⟨hl, hr⟩
        exact ⟨congrArg Expr.number hl, hr⟩

/-- So are assignments. -/
theorem parseAssignment_onLine (n : Int) (ts : List Token) :
    Except.Matches (Failure.OnLine n) (fun s s' => s' = s.onLine n)
      (parseAssignment ts) (parseAssignment (ts.map (Token.onLine n))) := by
  have hdrop : ∀ ts : List Token,
      dropSemicolon (ts.map (Token.onLine n)) = (dropSemicolon ts).map (Token.onLine n) := by
    intro ts
    cases ts with
    | nil => rfl
    | cons t r =>
        rw [List.map_cons, dropSemicolon, dropSemicolon, show (t.onLine n).kind = t.kind from rfl]
        split
        · rfl
        · rfl
  refine (expect_onLine n .ident ts).bind ?_
  rintro ⟨name, r₁⟩ ⟨_, _⟩ ⟨rfl, rfl⟩
  refine (expect_onLine n .assign r₁).bind ?_
  rintro ⟨assign, r₂⟩ ⟨_, _⟩ ⟨rfl, rfl⟩
  refine (parseSource_onLine n r₂).bind ?_
  rintro ⟨value, r₃⟩ ⟨_, _⟩ ⟨rfl, rfl⟩
  simp only [hdrop]
  refine (expectEnd_onLine n (dropSemicolon r₃)).bind ?_
  rintro _ _ -
  exact .ok rfl

/-- **Statements are read the same on every line**, or fail alike. -/
theorem parse_onLine (m n : Int) (kind : LineKind) (line body : Bytes) (ts : List Token) :
    Except.Matches (Failure.OnLine n) (fun s s' => s' = s.onLine n)
      (parse m kind line body ts) (parse n kind line body (ts.map (Token.onLine n))) := by
  have htake : (ts.map (Token.onLine n)).takeWhile (·.kind != .eof) =
      (ts.takeWhile (·.kind != .eof)).map (Token.onLine n) :=
    List.takeWhile_map
  simp only [parse, htake]
  cases kind with
  | declaration => exact parseDeclaration_onLine n _
  | assignment => exact parseAssignment_onLine n _
  | print =>
      refine (Expr.parse_onLine n _).map ?_
      rintro e _ rfl
      rfl

end Statement

end LineCalc
