import LineCalc.Proofs.Except
import LineCalc.Proofs.Expr.Grammar
/-!
# The grammar of statements

Which tokens make a declaration or an assignment.

* `Statement.parseDeclaration_eq_ok_iff` : a type word, a name that is not reserved, an optional
  literal after `=`, and a semicolon;
* `Statement.parseAssignment_eq_ok_iff` : a name, `=`, a literal or a name, and an optional
  semicolon.
-/
namespace LineCalc

/-! ## Literals -/

namespace Literal

/-- The tokens of a literal. -/
def tokens (l : Literal) : List Token := l.sign.toList ++ [l.number]

/-- The literal is a number, and its sign, if it has one, touches it. -/
structure IsSigned (l : Literal) : Prop where
  number : l.number.kind = .number
  sign : ∀ s ∈ l.sign, (s.kind = .plus ∨ s.kind = .minus) ∧ l.number.column = s.column + 1

end Literal

namespace Statement

/-- The first token is of the expected kind. -/
theorem expect_eq_ok_iff {k : TokenKind} {ts r : List Token} {t : Token} :
    expect k ts = .ok (t, r) ↔ ts = t :: r ∧ t.kind = k := by
  cases ts with
  | nil => simp [expect]
  | cons u r' =>
      rw [expect]
      split
      · next h => simp only [Except.ok.injEq, Prod.mk.injEq, List.cons.injEq]; grind
      · next h => simp only [reduceCtorEq, List.cons.injEq, false_iff]; grind

/-- No tokens are left. -/
theorem expectEnd_eq_ok_iff {ts : List Token} {u : Unit} : expectEnd ts = .ok u ↔ ts = [] := by
  cases ts with
  | nil => simp [expectEnd]
  | cons t r => simp [expectEnd]

/-- A literal is read just if it stands at the front with its sign touching it. -/
theorem parseLiteral_eq_ok_iff {ts r : List Token} {l : Literal} :
    parseLiteral ts = .ok (l, r) ↔ ts = l.tokens ++ r ∧ l.IsSigned := by
  constructor
  · intro h
    cases ts with
    | nil => simp [parseLiteral] at h
    | cons t r' =>
        rw [parseLiteral] at h
        split at h
        · next hk =>
            cases h
            exact ⟨rfl, hk, by simp⟩
        split at h
        · next hsign =>
            split at h
            · cases h
            · next n r'' hn =>
                obtain ⟨rfl, hnumber⟩ := expect_eq_ok_iff.1 hn
                split at h
                · next hcolumn =>
                    cases h
                    refine ⟨rfl, hnumber, ?_⟩
                    rintro s ⟨⟩
                    exact ⟨hsign, hcolumn⟩
                · cases h
        · cases h
  · rintro ⟨rfl, hnumber, hsign⟩
    obtain ⟨sign, n⟩ := l
    cases sign with
    | none =>
        show parseLiteral (n :: r) = _
        rw [parseLiteral, if_pos hnumber]
    | some s =>
        obtain ⟨hkind, hcolumn⟩ := hsign s rfl
        have hne : s.kind ≠ .number := by rcases hkind with h | h <;> simp [h]
        have hexpect : expect .number (n :: r) = .ok (n, r) := expect_eq_ok_iff.2 ⟨rfl, hnumber⟩
        show parseLiteral (s :: n :: r) = _
        rw [parseLiteral, if_neg hne, if_pos hkind, hexpect]
        exact if_pos hcolumn

/-! ## Declarations -/

/-- The tokens give the initial value: nothing, or `=` and a literal. -/
def Initial : Option Literal → List Token → Prop
  | none, ts => ts = []
  | some l, ts => ∃ t, t.kind = .assign ∧ ts = t :: l.tokens ∧ l.IsSigned

/-- An initial value is read just if the tokens give it, and none if no `=` comes first. -/
theorem parseInitial_eq_ok_iff {ts r : List Token} {value : Option Literal} :
    parseInitial ts = .ok (value, r) ↔ (∃ init, Initial value init ∧ ts = init ++ r) ∧
      (value = none → ∀ t ∈ r.head?, t.kind ≠ .assign) := by
  constructor
  · intro h
    cases ts with
    | nil =>
        cases h
        exact ⟨⟨[], rfl, rfl⟩, by simp⟩
    | cons t r' =>
        rw [parseInitial] at h
        split at h
        · next hassign =>
            obtain ⟨⟨l, r''⟩, hl, heq⟩ := Except.map_eq_ok_iff.1 h
            cases heq
            obtain ⟨rfl, hsigned⟩ := parseLiteral_eq_ok_iff.1 hl
            exact ⟨⟨t :: l.tokens, ⟨t, hassign, rfl, hsigned⟩, rfl⟩, by simp⟩
        · next hassign =>
            cases h
            refine ⟨⟨[], rfl, rfl⟩, ?_⟩
            rintro - t ⟨⟩
            exact hassign
  · rintro ⟨⟨init, hinit, rfl⟩, hnone⟩
    cases value with
    | none =>
        cases hinit
        cases r with
        | nil => rfl
        | cons t r' =>
            show parseInitial (t :: r') = _
            rw [parseInitial, if_neg (hnone rfl t rfl)]
    | some l =>
        obtain ⟨t, hassign, rfl, hsigned⟩ := hinit
        show parseInitial (t :: (l.tokens ++ r)) = _
        rw [parseInitial, if_pos hassign]
        exact Except.map_eq_ok_iff.2 ⟨(l, r), parseLiteral_eq_ok_iff.2 ⟨rfl, hsigned⟩, rfl⟩

/-- The tokens of a declaration. -/
structure IsDeclaration (type name : Token) (value : Option Literal) (ts : List Token) : Prop where
  type_kind : type.kind = .ident
  type_word : type.lexeme = utf8 "int" ∨ type.lexeme = utf8 "double"
  name_kind : name.kind = .ident
  name_free : isReserved name.lexeme = false
  tokens : ∃ init closing, Initial value init ∧ closing.kind = .semicolon ∧
    ts = type :: name :: (init ++ [closing])

/-- **The grammar of declarations.** -/
theorem parseDeclaration_eq_ok_iff {ts : List Token} {s : Statement} :
    parseDeclaration ts = .ok s ↔
      ∃ type name value, s = declaration type name value ∧ IsDeclaration type name value ts := by
  constructor
  · intro h
    cases ts with
    | nil => cases h
    | cons t r =>
        rw [parseDeclaration] at h
        split at h
        · next htype =>
            obtain ⟨⟨name, r₁⟩, hname, hrest⟩ := Except.bind_eq_ok_iff.1 h
            obtain ⟨rfl, hident⟩ := expect_eq_ok_iff.1 hname
            simp only at hrest
            split at hrest
            · cases hrest
            · next hfree =>
                obtain ⟨⟨value, r₂⟩, hvalue, hrest⟩ := Except.bind_eq_ok_iff.1 hrest
                obtain ⟨⟨closing, r₃⟩, hclosing, hrest⟩ := Except.bind_eq_ok_iff.1 hrest
                obtain ⟨u, hend, hrest⟩ := Except.bind_eq_ok_iff.1 hrest
                cases hrest
                obtain ⟨⟨init, hinit, rfl⟩, -⟩ := parseInitial_eq_ok_iff.1 hvalue
                obtain ⟨rfl, hsemicolon⟩ := expect_eq_ok_iff.1 hclosing
                obtain rfl := expectEnd_eq_ok_iff.1 hend
                exact ⟨t, name, value, rfl, htype.1, htype.2, hident, by simpa using hfree,
                  init, closing, hinit, hsemicolon, rfl⟩
        · cases h
  · rintro ⟨type, name, value, rfl, htype, hword, hident, hfree, init, closing, hinit, hclosing,
      rfl⟩
    have hname : expect .ident (name :: (init ++ [closing])) = .ok (name, init ++ [closing]) :=
      expect_eq_ok_iff.2 ⟨rfl, hident⟩
    have hvalue : parseInitial (init ++ [closing]) = .ok (value, [closing]) :=
      parseInitial_eq_ok_iff.2 ⟨⟨init, hinit, rfl⟩, by simp [hclosing]⟩
    have hsemicolon : expect .semicolon [closing] = .ok (closing, []) :=
      expect_eq_ok_iff.2 ⟨rfl, hclosing⟩
    rw [parseDeclaration, if_pos ⟨htype, hword⟩, hname]
    simp only [bind, Except.bind, hfree, hvalue, hsemicolon, expectEnd]
    rfl

/-! ## Assignments -/

/-- The right side of an assignment: a name or a literal. -/
inductive IsSource : Expr → Prop
  | ident (t : Token) (h : t.kind = .ident) : IsSource (.ident t)
  | number (l : Literal) (h : l.IsSigned) : IsSource (.number l)

/-- A right side is read just if it stands at the front. -/
theorem parseSource_eq_ok_iff {ts r : List Token} {e : Expr} :
    parseSource ts = .ok (e, r) ↔ ts = e.tokens ++ r ∧ IsSource e := by
  constructor
  · intro h
    cases ts with
    | nil => cases h
    | cons t r' =>
        rw [parseSource] at h
        split at h
        · next hident =>
            cases h
            exact ⟨rfl, .ident t hident⟩
        · obtain ⟨⟨l, r''⟩, hl, heq⟩ := Except.map_eq_ok_iff.1 h
          cases heq
          obtain ⟨htokens, hsigned⟩ := parseLiteral_eq_ok_iff.1 hl
          exact ⟨htokens, .number l hsigned⟩
  · rintro ⟨rfl, hsource⟩
    cases hsource with
    | ident t hident =>
        show parseSource (t :: r) = _
        rw [parseSource, if_pos hident]
    | number l hsigned =>
        have hliteral : parseLiteral (l.tokens ++ r) = .ok (l, r) :=
          parseLiteral_eq_ok_iff.2 ⟨rfl, hsigned⟩
        obtain ⟨t, r', htokens, hident⟩ : ∃ t r', l.tokens ++ r = t :: r' ∧ t.kind ≠ .ident := by
          obtain ⟨sign, n⟩ := l
          obtain ⟨hnumber, hsign⟩ := hsigned
          cases sign with
          | none =>
              have hn : n.kind = .number := hnumber
              exact ⟨n, r, rfl, by simp [hn]⟩
          | some s =>
              refine ⟨s, n :: r, rfl, ?_⟩
              rcases (hsign s rfl).1 with h | h <;> simp [h]
        show parseSource (l.tokens ++ r) = _
        rw [htokens] at hliteral ⊢
        rw [parseSource, if_neg hident, hliteral]
        rfl

/-- The tokens of an assignment. -/
structure IsAssignment (name : Token) (value : Expr) (ts : List Token) : Prop where
  name_kind : name.kind = .ident
  source : IsSource value
  tokens : ∃ (assign : Token) (closing : List Token), assign.kind = .assign ∧
    (closing = [] ∨ ∃ t, t.kind = .semicolon ∧ closing = [t]) ∧
    ts = name :: assign :: (value.tokens ++ closing)

/-- An optional semicolon and nothing else. -/
theorem dropSemicolon_eq_nil_iff {ts : List Token} :
    dropSemicolon ts = [] ↔ ts = [] ∨ ∃ t, t.kind = .semicolon ∧ ts = [t] := by
  cases ts with
  | nil => simp [dropSemicolon]
  | cons t r =>
      rw [dropSemicolon]
      split
      · next h => grind
      · next h => grind

/-- **The grammar of assignments.** -/
theorem parseAssignment_eq_ok_iff {ts : List Token} {s : Statement} :
    parseAssignment ts = .ok s ↔
      ∃ name value, s = assignment name value ∧ IsAssignment name value ts := by
  constructor
  · intro h
    obtain ⟨⟨name, r₁⟩, hname, h⟩ := Except.bind_eq_ok_iff.1 h
    obtain ⟨⟨assign, r₂⟩, hassign, h⟩ := Except.bind_eq_ok_iff.1 h
    obtain ⟨⟨value, r₃⟩, hvalue, h⟩ := Except.bind_eq_ok_iff.1 h
    obtain ⟨u, hend, h⟩ := Except.bind_eq_ok_iff.1 h
    cases h
    obtain ⟨rfl, hident⟩ := expect_eq_ok_iff.1 hname
    obtain ⟨rfl, hsign⟩ := expect_eq_ok_iff.1 hassign
    obtain ⟨rfl, hsource⟩ := parseSource_eq_ok_iff.1 hvalue
    have hclosing := dropSemicolon_eq_nil_iff.1 (expectEnd_eq_ok_iff.1 hend)
    exact ⟨name, value, rfl, hident, hsource, assign, r₃, hsign, hclosing, rfl⟩
  · rintro ⟨name, value, rfl, hident, hsource, assign, closing, hassign, hclosing, rfl⟩
    refine Except.bind_eq_ok_iff.2 ⟨(name, _), expect_eq_ok_iff.2 ⟨rfl, hident⟩, ?_⟩
    refine Except.bind_eq_ok_iff.2 ⟨(assign, _), expect_eq_ok_iff.2 ⟨rfl, hassign⟩, ?_⟩
    refine Except.bind_eq_ok_iff.2
      ⟨(value, closing), parseSource_eq_ok_iff.2 ⟨rfl, hsource⟩, ?_⟩
    refine Except.bind_eq_ok_iff.2 ⟨(), ?_, rfl⟩
    exact expectEnd_eq_ok_iff.2 (dropSemicolon_eq_nil_iff.2 hclosing)

end Statement

end LineCalc
