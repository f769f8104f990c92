import LineCalc.Proofs.Line.Outcome
import LineCalc.Proofs.Line.Writing
/-!
# Lenient mode

Lenient mode drops the tokens that no expression holds.  A print line with such a token is refused
in strict mode, so the modes differ on refused lines only.

* `Reading.parse_of_unrecognized` : a print line with a token that no expression holds is refused;
* `Reading.ofLine_true_or` : the modes read a line alike, or it is such a line;
* `Step.lenient_extends_strict` : what a line does is the same in both modes, or it is such a line.
-/
namespace LineCalc

/-! ## The tokens of expressions -/

/-- The kinds of the tokens that an expression may hold, and of the end. -/
def TokenKind.recognized : List TokenKind := [number, ident, plus, minus, times, slash, eof]

/-- The recognized kinds are those of operands, operators and the end. -/
theorem TokenKind.mem_recognized_iff (k : TokenKind) :
    k ∈ recognized ↔ k.isOperand ∨ k.isOperator ∨ k = .eof := by
  cases k <;> simp [recognized, isOperand, isOperator]

/-- If all tokens are recognized, none is dropped. -/
theorem Token.keepRecognized_eq_self {ts : List Token}
    (h : ∀ t ∈ ts, t.kind ∈ TokenKind.recognized) : keepRecognized ts = ts := by
  rw [keepRecognized, List.filter_eq_self]
  intro t ht
  have hkind := (TokenKind.mem_recognized_iff t.kind).1 (h t ht)
  simpa [or_assoc] using hkind

/-! ## Reading in the two modes -/

namespace Reading

/-- **No expression holds an unrecognized token**, wherever it stands. -/
theorem parse_of_unrecognized {number : Int} (line : Bytes) {body : Bytes} {u : Token}
    (hu : u ∈ Token.scan number body) (hkind : u.kind ∉ TokenKind.recognized) :
    ∃ f, Statement.parse number .print line body (Token.scan number body) = .error f := by
  cases hparse : Statement.parse number .print line body (Token.scan number body) with
  | error f => exact ⟨f, rfl⟩
  | ok s =>
      obtain ⟨e, htree, -⟩ := Statement.parse_print_eq_ok_iff.1 hparse
      obtain ⟨ts, last, hscan, hlast, hend, -⟩ := Layout.exists_scan_eq number body
      rw [hscan, Statement.takeWhile_append_end hend hlast] at htree
      rw [TokenKind.mem_recognized_iff, not_or, not_or] at hkind
      obtain ⟨hoperand, hoperator, hne⟩ := hkind
      -- the end is recognized, so the token stands before it and belongs to the tree
      have hmem : u ∈ e.tokens := by
        rw [htree.tokens]
        rw [hscan, List.mem_append, List.mem_singleton] at hu
        rcases hu with hu | rfl
        · exact hu
        · exact absurd hlast hne
      rcases htree.shaped.kind_of_mem u hmem with h | h
      · exact absurd h hoperand
      · exact absurd h hoperator

/-- The line is a print line whose expression has an unrecognized token, and strict mode refuses
it for its grammar. -/
def IsSoiled (number : Int) (line : Bytes) : Prop :=
  LineKind.ofLine line = .print ∧ ∃ body, LineKind.printBody? line = some body ∧
    (∃ u ∈ Token.scan number body, u.kind ∉ TokenKind.recognized) ∧
    ∃ f, ofLine false number line = ⟨.print, body, Token.scan number body, .error (.grammar f)⟩

/-- **Both modes read a line alike**, unless it is a print line with an unrecognized token. -/
theorem ofLine_true_or (number : Int) (line : Bytes) :
    ofLine true number line = ofLine false number line ∨ IsSoiled number line := by
  cases hkind : LineKind.ofLine line with
  | declaration =>
      left
      rw [ofLine, ofLine, hkind]
      rfl
  | assignment =>
      left
      rw [ofLine, ofLine, hkind]
      rfl
  | print =>
      cases hbody : LineKind.printBody? line with
      | none =>
          left
          rw [ofLine, ofLine, hkind, hbody]
      | some body =>
          by_cases hall : ∀ u ∈ Token.scan number body, u.kind ∈ TokenKind.recognized
          · left
            have hscan : scan true number .print line body = scan false number .print line body :=
              Token.keepRecognized_eq_self hall
            simp only [ofLine, hkind, hbody, ofKind, hscan]
          · right
            push Not at hall
            obtain ⟨u, hu, hunrecognized⟩ := hall
            obtain ⟨f, hf⟩ := parse_of_unrecognized line hu hunrecognized
            refine ⟨hkind, body, hbody, ⟨u, hu, hunrecognized⟩, f, ?_⟩
            have hscan : scan false number .print line body = Token.scan number body := rfl
            simp only [ofLine, hkind, hbody, ofKind, hscan, hf, Except.mapError]

end Reading

/-! ## Running in the two modes -/

namespace Step

/-- A line that is read alike does the same. -/
theorem ofLine_congr {lenient lenient' : Bool} {number : Int} {line : Bytes}
    (h : Reading.ofLine lenient number line = Reading.ofLine lenient' number line) (t : Table) :
    ofLine lenient t number line = ofLine lenient' t number line := by
  rw [ofLine, ofLine, h]

/-- **Lenient mode extends strict mode.**

* If a line ends otherwise in lenient mode, with another statement, output, complaint or table, it
  is a print line whose expression has a token that is no number, no name, no operator and not the
  end, and strict mode has complained about the expression.
* A line that strict mode reads does the same in lenient mode.
* So does every declaration and every assignment. -/
theorem lenient_extends_strict (t : Table) (number : Int) (line : Bytes) :
    let strict := ofLine false t number line
    let lenient := ofLine true t number line
    (lenient ≠ strict → LineKind.ofLine line = .print ∧
      ∃ body, LineKind.printBody? line = some body ∧
        (∃ u ∈ Token.scan number body,
          u.kind ∉ [TokenKind.number, .ident, .plus, .minus, .times, .slash, .eof]) ∧
        ∃ d, strict.diagnostic? = some d ∧ d.code = .expression) ∧
    (strict.statement?.isSome → lenient = strict) ∧
    (LineKind.ofLine line ≠ .print → lenient = strict) := by
  intro strict lenient
  have hor : lenient = strict ∨ Reading.IsSoiled number line :=
    (Reading.ofLine_true_or number line).imp_left fun h => ofLine_congr h t
  refine ⟨?_, ?_, ?_⟩
  · intro hne
    obtain ⟨hkind, body, hbody, hunrecognized, f, hread⟩ := hor.resolve_left hne
    refine ⟨hkind, body, hbody, hunrecognized, ⟨.expression, .wholeLine number, [body, f.message]⟩,
      ?_, rfl⟩
    simp only [strict, ofLine, hread]
    rfl
  · intro hsome
    refine hor.resolve_right ?_
    rintro ⟨-, body, -, -, f, hread⟩
    have hnone : strict.statement? = none := by
      rw [statement?_ofLine, hread]
      rfl
    rw [hnone] at hsome
    cases hsome
  · intro hprint
    exact hor.resolve_right fun h => hprint h.1

/-- `print(1$);` is refused in strict mode and shows `1` in lenient mode; `print(1);` and `int x;`
do the same in both. -/
theorem lenient_extends_strict_dollar :
    let strict := ofLine false .empty 1
    let lenient := ofLine true .empty 1
    (lenient (utf8 "print(1$);") ≠ strict (utf8 "print(1$);") ∧
      ∃ d, (strict (utf8 "print(1$);")).diagnostic? = some d ∧ d.code = .expression) ∧
    lenient (utf8 "print(1);") = strict (utf8 "print(1);") ∧
    lenient (utf8 "int x;") = strict (utf8 "int x;") := by
  intro strict lenient
  have hdiffer : lenient (utf8 "print(1$);") ≠ strict (utf8 "print(1$);") := by
    intro h
    have hstrict : (strict (utf8 "print(1$);")).diagnostic?.isSome = true := by decide +kernel
    have hlenient : (lenient (utf8 "print(1$);")).diagnostic?.isSome = false := by decide +kernel
    rw [h, hstrict] at hlenient
    cases hlenient
  have hread : (strict (utf8 "print(1);")).statement?.isSome := by decide +kernel
  have hkind : LineKind.ofLine (utf8 "int x;") ≠ .print := by decide
  obtain ⟨-, body, -, -, hcomplaint⟩ :=
    (lenient_extends_strict .empty 1 (utf8 "print(1$);")).1 hdiffer
  exact ⟨⟨hdiffer, hcomplaint⟩, (lenient_extends_strict .empty 1 (utf8 "print(1);")).2.1 hread,
    (lenient_extends_strict .empty 1 (utf8 "int x;")).2.2 hkind⟩

end Step

end LineCalc
