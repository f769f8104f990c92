import LineCalc.Proofs.Expr.Grammar
import LineCalc.Statement.Recorder
/-!
# What the record of a parser says

A parser with a record gives what the parser without one gives.  If that fails, the record has the
words for its failure, and if not, the record is as it was.

* `Recorder.ofExcept` : the parser with a record that does what one without does;
* `Recorder.statement_eq` : the parser of a line is such a one;
* `Recorder.on_statement` : its result and its record.
-/
namespace LineCalc.Recorder

variable {α β : Type}

/-- Parsers with the same results and records are the same. -/
theorem ext {x y : Recorder α} (h : ∀ record, x.on record = y.on record) : x = y := funext h

/-- What comes after a parser starts with its record. -/
theorem on_bind (x : Recorder α) (f : α → Recorder β) (record : Bytes) : (x >>= f).on record =
    match x.on record with
    | (some a, record') => (f a).on record'
    | (none, record') => (none, record') := by
  show (match (x.on record).1 with | some a => _ | none => _ : StateM Bytes _) (x.on record).2 = _
  cases x.on record with
  | mk a record' =>
      cases a with
      | none => rfl
      | some a => rfl

/-- The first failure is recorded. -/
theorem on_fail (f : Failure) (record : Bytes) :
    (fail f : Recorder α).on record = (none, if record.isEmpty then f.message else record) := by
  rw [fail, on_bind]
  show on (if record.isEmpty then _ else _) record = _
  split
  · rfl
  · rfl

/-- Nothing comes after a failure. -/
theorem fail_bind (f : Failure) (g : α → Recorder β) : (fail f >>= g) = fail f := by
  apply ext
  intro record
  rw [on_bind, on_fail, on_fail]

/-- What gives a result goes on with it. -/
theorem pure_bind (a : α) (g : α → Recorder β) : (pure a >>= g) = g a := rfl

/-- The parser with a record that gives what is given, or fails so. -/
def ofExcept : Except Failure α → Recorder α
  | .ok a => pure a
  | .error f => fail f

/-- Two parsers in a row. -/
theorem ofExcept_bind (x : Except Failure α) (g : α → Except Failure β) :
    ofExcept (x >>= g) = ofExcept x >>= fun a => ofExcept (g a) := by
  cases x with
  | error f => exact (fail_bind f _).symm
  | ok a => rfl

/-- A parser with another result. -/
theorem ofExcept_map (x : Except Failure α) (g : α → β) :
    ofExcept (x.map g) = ofExcept x >>= fun a => pure (g a) := by
  cases x with
  | error f => exact (fail_bind f _).symm
  | ok a => rfl

/-! ## Expressions -/

/-- Climbing over operators. -/
theorem climb_eq {bound : Nat}
    {operand : Nat → (ts : List Token) → Except Failure (Parsed ts.length)} (level : Nat)
    (left : Expr) (rest : List Token) (h : rest.length < bound) :
    climb (fun d ts => ofExcept (operand d ts)) level left rest h =
      ofExcept (Expr.climb operand level left rest h) := by
  induction hn : rest.length using Nat.strong_induction_on generalizing left rest with
  | _ n ih =>
  subst hn
  cases rest with
  | nil => rw [climb, Expr.climb, ofExcept]
  | cons t r =>
      rw [climb, Expr.climb]
      split
      · cases hp : operand t.kind.precedence r with
        | error f => exact fail_bind f _
        | ok p =>
            have hlt := p.rest_lt
            rw [ofExcept, pure_bind]
            exact ih p.rest.length (by simp; omega) _ _ _ rfl
      · rfl

/-- The expression at the front of the tokens. -/
theorem parseAt_eq (depth level : Nat) (ts : List Token) :
    parseAt depth level ts = ofExcept (Expr.parseAt depth level ts) := by
  induction depth generalizing level ts with
  | zero => rfl
  | succ depth ih =>
      have hoperand : parseAt depth = fun l us => ofExcept (Expr.parseAt depth l us) := by
        funext l us
        exact ih l us
      cases ts with
      | nil => rfl
      | cons t r =>
          have hsigned : (t.kind = .plus ∨ t.kind = .minus) → (do
              let p ← parseAt depth signPrecedence r
              climb (parseAt depth) level (.unary t p.expr) p.rest
                (Nat.lt_succ_of_lt p.rest_lt) : Recorder (Parsed (t :: r).length)) =
              ofExcept (Expr.parseAt (depth + 1) level (t :: r)) := by
            intro hsign
            rw [Expr.parseAt_sign hsign, hoperand]
            dsimp only
            cases Expr.parseAt depth signPrecedence r with
            | error f => exact fail_bind f _
            | ok p => exact climb_eq level _ p.rest _
          rw [parseAt]
          split
          · next hkind => rw [Expr.parseAt_number hkind, hoperand, climb_eq]
          · next hkind => rw [Expr.parseAt_ident hkind, hoperand, climb_eq]
          · next hkind => exact hsigned (.inl hkind)
          · next hkind => exact hsigned (.inr hkind)
          · next hnumber hident hplus hminus =>
              rw [Expr.parseAt_other hnumber hident (not_or.2 ⟨hplus, hminus⟩), ofExcept]

/-- The expression of all tokens. -/
theorem expression_eq (ts : List Token) : expression ts = ofExcept (Expr.parse ts) := by
  unfold expression Expr.parse
  split
  · rfl
  · rw [parseAt_eq]
    cases Expr.parseAt nestingLimit 0 ts with
    | error f => exact fail_bind f _
    | ok p =>
        obtain ⟨e, rest, hlt⟩ := p
        cases rest with
        | nil => rfl
        | cons t r => rfl

/-! ## Statements -/

/-- A token of a kind. -/
theorem expect_eq (kind : TokenKind) (ts : List Token) :
    expect kind ts = ofExcept (Statement.expect kind ts) := by
  cases ts with
  | nil => rfl
  | cons t r =>
      rw [expect, Statement.expect]
      split
      · rfl
      · rfl

/-- The end. -/
theorem expectEnd_eq (ts : List Token) : expectEnd ts = ofExcept (Statement.expectEnd ts) := by
  cases ts with
  | nil => rfl
  | cons t r => rfl

/-- A literal. -/
theorem literal_eq (ts : List Token) : literal ts = ofExcept (Statement.parseLiteral ts) := by
  cases ts with
  | nil => rfl
  | cons t r =>
      rw [literal, Statement.parseLiteral]
      split
      · rfl
      · split
        · rw [expect_eq]
          cases Statement.expect .number r with
          | error f => exact fail_bind f _
          | ok p =>
              obtain ⟨n, r'⟩ := p
              show (if n.column = t.column + 1 then _ else _) = ofExcept (if _ then _ else _)
              split
              · rfl
              · rfl
        · rfl

/-- An initial value. -/
theorem initial_eq (ts : List Token) : initial ts = ofExcept (Statement.parseInitial ts) := by
  cases ts with
  | nil => rfl
  | cons t r =>
      rw [initial, Statement.parseInitial]
      split
      · rw [ofExcept_map, literal_eq]
      · rfl

/-- A declaration. -/
theorem declaration_eq (ts : List Token) :
    declaration ts = ofExcept (Statement.parseDeclaration ts) := by
  cases ts with
  | nil => rfl
  | cons t r =>
      rw [declaration, Statement.parseDeclaration]
      split
      · simp only [expect_eq, initial_eq, expectEnd_eq, ofExcept_bind]
        congr 1
        funext p
        split
        · exact fail_bind _ _
        · simp only [ofExcept_bind]
          rfl
      · rfl

/-- The right side of an assignment. -/
theorem source_eq (ts : List Token) : source ts = ofExcept (Statement.parseSource ts) := by
  cases ts with
  | nil => rfl
  | cons t r =>
      rw [source, Statement.parseSource]
      split
      · rfl
      · rw [ofExcept_map, literal_eq]

/-- An assignment. -/
theorem assignment_eq (ts : List Token) :
    assignment ts = ofExcept (Statement.parseAssignment ts) := by
  simp only [assignment, Statement.parseAssignment, expect_eq, source_eq, expectEnd_eq,
    ofExcept_bind]
  rfl

/-- **The parser of a line** with a record does what the one without does. -/
theorem statement_eq (number : Int) (kind : LineKind) (line body : Bytes) (ts : List Token) :
    statement number kind line body ts =
      ofExcept (Statement.parse number kind line body ts) := by
  cases kind with
  | declaration => exact declaration_eq _
  | assignment => exact assignment_eq _
  | print => exact (congrArg (· >>= _) (expression_eq _)).trans (ofExcept_map _ _).symm

/-- **The record of a line**: nothing if there is a statement, and else the words of its failure. -/
theorem on_statement (number : Int) (kind : LineKind) (line body : Bytes) (ts : List Token) :
    (statement number kind line body ts).on [] =
      match Statement.parse number kind line body ts with
      | .ok s => (some s, [])
      | .error f => (none, f.message) := by
  rw [statement_eq]
  cases Statement.parse number kind line body ts with
  | ok s => rfl
  | error f => exact on_fail f []

end LineCalc.Recorder
