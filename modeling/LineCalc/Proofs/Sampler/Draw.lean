import LineCalc.Proofs.Line.Writing
import LineCalc.Proofs.Text.Digits
import LineCalc.Sampler
/-!
# What can be drawn

What holds of everything that is drawn, whatever the bytes are.

* `Sampler.Draws` : the results of a draw and the variables it leaves satisfy a relation;
* `Sampler.Yields` : the draw leaves the variables as they are;
* `Sampler.signed_yields` : a signed literal is a value of its kind.
-/
namespace LineCalc.Sampler

variable {α β : Type} {ds : List (Bytes × Kind)}

/-! ## Draws -/

/-- From any sampler with the variables `ds`, the result and the variables afterwards satisfy
`Q`. -/
def Draws (ds : List (Bytes × Kind)) (d : Draw α) (Q : α → List (Bytes × Kind) → Prop) : Prop :=
  ∀ g, g.declared = ds → Q (d g).1 (d g).2.declared

/-- From any sampler with the variables `ds`, the result satisfies `P` and the variables stay. -/
def Yields (ds : List (Bytes × Kind)) (d : Draw α) (P : α → Prop) : Prop :=
  Draws ds d fun a ds' => P a ∧ ds' = ds

/-- A result that is not drawn. -/
theorem Draws.pure {Q : α → List (Bytes × Kind) → Prop} {a : α} (h : Q a ds) :
    Draws ds (Pure.pure a) Q := by
  rintro g rfl
  exact h

/-- One draw after the other. -/
theorem Draws.bind {Q : α → List (Bytes × Kind) → Prop} {R : β → List (Bytes × Kind) → Prop}
    {d : Draw α} {f : α → Draw β} (hd : Draws ds d Q)
    (hf : ∀ a ds', Q a ds' → Draws ds' (f a) R) : Draws ds (d >>= f) R := by
  rintro g hg
  exact hf (d g).1 (d g).2.declared (hd g hg) (d g).2 rfl

/-- A draw that keeps the variables, and another after it. -/
theorem Yields.bind {P : α → Prop} {R : β → List (Bytes × Kind) → Prop} {d : Draw α}
    {f : α → Draw β} (hd : Yields ds d P) (hf : ∀ a, P a → Draws ds (f a) R) :
    Draws ds (d >>= f) R := by
  refine Draws.bind hd ?_
  rintro a ds' ⟨ha, rfl⟩
  exact hf a ha

/-- A draw that looks at the variables. -/
theorem Draws.get {R : β → List (Bytes × Kind) → Prop} {f : Sampler → Draw β}
    (hf : ∀ g, g.declared = ds → Draws ds (f g) R) : Draws ds (MonadState.get >>= f) R := by
  rintro g hg
  exact hf g hg g hg

/-- Drawing under a weaker relation. -/
theorem Draws.imp {Q Q' : α → List (Bytes × Kind) → Prop} {d : Draw α} (hd : Draws ds d Q)
    (h : ∀ a ds', Q a ds' → Q' a ds') : Draws ds d Q' :=
  fun g hg => h _ _ (hd g hg)

/-! ## Choices -/

/-- A choice among some things falls on one of them. -/
theorem choose_yields (n : Nat) : Yields ds (choose n) fun i => 0 < n → i < n := by
  rintro g rfl
  unfold choose
  cases n with
  | zero => exact ⟨fun h => h, rfl⟩
  | succ n =>
      cases g.data with
      | nil => exact ⟨fun h => h, rfl⟩
      | cons b r => exact ⟨fun _ => Nat.mod_lt _ (Nat.succ_pos n), rfl⟩

/-- Any answer can be drawn. -/
theorem oneIn_yields (n : Nat) : Yields ds (oneIn n) fun _ => True :=
  (choose_yields n).bind fun _ _ => .pure ⟨trivial, rfl⟩

/-- What is picked is a member. -/
theorem pick_yields {xs : List α} (default : α) (h : xs ≠ []) :
    Yields ds (pick default xs) fun a => a ∈ xs := by
  refine (choose_yields xs.length).bind ?_
  intro i hi
  have hlt := hi (List.length_pos_of_ne_nil h)
  refine .pure ⟨?_, rfl⟩
  show xs.getD i default ∈ xs
  rw [List.getD_eq_getElem?_getD, List.getElem?_eq_getElem hlt, Option.getD_some]
  exact List.getElem_mem hlt

/-- Single bytes of a class, drawn several times. -/
theorem times_yields {p : UInt8 → Bool} {d : Draw Bytes}
    (hd : Yields ds d fun s => ∃ b, p b ∧ s = [b]) (n : Nat) :
    Yields ds (times n d) fun s => s.length = n ∧ ∀ b ∈ s, p b := by
  induction n with
  | zero => exact .pure ⟨⟨rfl, by simp⟩, rfl⟩
  | succ n ih =>
      refine hd.bind fun first hfirst => ih.bind fun rest hrest => ?_
      obtain ⟨b, hb, rfl⟩ := hfirst
      obtain ⟨hlength, hrest⟩ := hrest
      refine .pure ⟨⟨?_, List.forall_mem_cons.2 ⟨hb, hrest⟩⟩, rfl⟩
      show (b :: rest).length = n + 1
      rw [List.length_cons, hlength]

/-! ## Numerals -/

/-- One to four digits. -/
structure IsDigits (s : Bytes) : Prop where
  ne_nil : s ≠ []
  isDigit : ∀ d ∈ s, Bytes.isDigit d
  length_le : s.length ≤ 4

/-- A literal of the kind, without a sign. -/
def IsNumeral : Kind → Bytes → Prop
  | .int, s => IsDigits s
  | .double, s => ∃ whole fraction, IsDigits whole ∧ IsDigits fraction ∧
      s = whole ++ 0x2e :: fraction

/-- Digits are drawn. -/
theorem digits_yields : Yields ds digits IsDigits := by
  have hdigit : Yields ds (do return [Bytes.digit (← choose 10)])
      fun s => ∃ d, Bytes.isDigit d ∧ s = [d] := by
    refine (choose_yields 10).bind fun n hn => .pure ⟨?_, rfl⟩
    exact ⟨_, Bytes.isDigit_digit (hn (by decide)), rfl⟩
  refine (choose_yields 4).bind fun n hn => (times_yields hdigit (n + 1)).imp ?_
  rintro s ds' ⟨⟨hlength, hdigits⟩, rfl⟩
  have hn := hn (by decide)
  refine ⟨⟨?_, hdigits, by omega⟩, rfl⟩
  apply List.ne_nil_of_length_pos
  omega

/-- A numeral is drawn. -/
theorem unsigned_yields (k : Kind) : Yields ds (unsigned k) (IsNumeral k) := by
  cases k with
  | int => exact digits_yields
  | double =>
      refine digits_yields.bind fun whole hwhole => digits_yields.bind fun fraction hfraction => ?_
      refine .pure ⟨⟨whole, fraction, hwhole, hfraction, ?_⟩, rfl⟩
      rw [List.append_assoc]
      rfl

/-- A sign or none is drawn. -/
theorem sign_yields : Yields ds sign IsSign := by
  refine (choose_yields 5).bind fun n _ => ?_
  match n with
  | 0 => exact .pure ⟨.inr (.inr rfl), rfl⟩
  | 1 => exact .pure ⟨.inr (.inl rfl), rfl⟩
  | n + 2 => exact .pure ⟨.inl rfl, rfl⟩

/-- A space or nothing is drawn. -/
theorem gap_yields : Yields ds gap fun s => s = [] ∨ s = utf8 " " := by
  refine (oneIn_yields 3).bind fun b _ => ?_
  cases b with
  | true => exact .pure ⟨.inr rfl, rfl⟩
  | false => exact .pure ⟨.inl rfl, rfl⟩

/-! ## Numerals as literals -/

/-- A numeral is spelled. -/
theorem IsNumeral.spells {k : Kind} {s : Bytes} (h : IsNumeral k s) : Layout.Spells .number s := by
  cases k with
  | int =>
      obtain ⟨d, r, rfl⟩ := List.exists_cons_of_ne_nil h.ne_nil
      obtain ⟨hd, hr⟩ := List.forall_mem_cons.1 h.isDigit
      exact ⟨d, r, hd, hr, .inl rfl⟩
  | double =>
      obtain ⟨whole, fraction, hwhole, hfraction, rfl⟩ := h
      obtain ⟨d, r, rfl⟩ := List.exists_cons_of_ne_nil hwhole.ne_nil
      obtain ⟨hd, hr⟩ := List.forall_mem_cons.1 hwhole.isDigit
      exact ⟨d, r, hd, hr, .inr ⟨fraction, hfraction.isDigit, rfl⟩⟩

/-- A numeral has at most nine bytes. -/
theorem IsNumeral.length_le {k : Kind} {s : Bytes} (h : IsNumeral k s) : s.length ≤ 9 := by
  cases k with
  | int => exact le_trans (IsDigits.length_le h) (by decide)
  | double =>
      obtain ⟨whole, fraction, hwhole, hfraction, rfl⟩ := h
      have h₁ := hwhole.length_le
      have h₂ := hfraction.length_le
      rw [List.length_append, List.length_cons]
      omega

/-- A numeral with a sign or without is a value of its kind. -/
theorem IsNumeral.read?_isSome {k : Kind} {s : Bytes} (h : IsNumeral k s) {sign : Bytes}
    (hsign : IsSign sign) : (Value.read? k (sign ++ s)).isSome := by
  cases k with
  | int =>
      rw [Value.read?, Option.isSome_map]
      exact readInt?_isSome hsign h.ne_nil h.isDigit (le_trans h.length_le (by decide))
  | double =>
      obtain ⟨whole, fraction, hwhole, hfraction, rfl⟩ := h
      have h₁ := hwhole.length_le
      have h₂ := hfraction.length_le
      rw [Value.read?, Option.isSome_map]
      exact readDouble?_isSome hsign hwhole.ne_nil hwhole.isDigit hfraction.isDigit (by omega)

/-- In an expression a numeral is read at its kind. -/
theorem IsNumeral.literalKind {k : Kind} {n : Token} (h : IsNumeral k n.lexeme) :
    Expr.literalKind ⟨none, n⟩ = k := by
  have hany : (⟨none, n⟩ : Literal).isFractional = n.lexeme.any (· == 0x2e) := rfl
  rw [Expr.literalKind, hany]
  cases k with
  | int =>
      have hnone : n.lexeme.any (· == 0x2e) = false := by
        rw [List.any_eq_false]
        intro b hb hpoint
        obtain rfl := eq_of_beq hpoint
        cases h.isDigit 0x2e hb
      rw [hnone]
      rfl
  | double =>
      obtain ⟨whole, fraction, -, -, hs⟩ := h
      have hsome : n.lexeme.any (· == 0x2e) = true := by
        rw [hs]
        simp
      rw [hsome]
      rfl

/-- The text is a literal of the kind, with a sign that touches it or without. -/
structure IsLiteral (k : Kind) (s : Bytes) (l : Literal) : Prop where
  text : l.text = s
  signed : l.IsSigned
  spells : ∀ t ∈ l.tokens, Layout.Spells t.kind t.lexeme
  reads : (Value.read? k l.text).isSome

/-- A sign and a numeral are a literal. -/
theorem exists_isLiteral {k : Kind} {sign s : Bytes} (hsign : IsSign sign) (hs : IsNumeral k s) :
    ∃ l, IsLiteral k (sign ++ s) l := by
  have hplus : Layout.Spells .plus (utf8 "+") := ⟨0x2b, by decide⟩
  have hminus : Layout.Spells .minus (utf8 "-") := ⟨0x2d, by decide⟩
  have hreads := hs.read?_isSome hsign
  have hnumber := hs.spells
  rcases hsign with rfl | rfl | rfl
  · refine ⟨⟨none, ⟨.number, s, 0, 0⟩⟩, rfl, ⟨rfl, by simp⟩, ?_, hreads⟩
    simpa [Literal.tokens] using hnumber
  · refine ⟨⟨some ⟨.plus, utf8 "+", 0, 0⟩, ⟨.number, s, 0, 1⟩⟩, rfl, ⟨rfl, by simp⟩, ?_, hreads⟩
    simpa [Literal.tokens] using ⟨hplus, hnumber⟩
  · refine ⟨⟨some ⟨.minus, utf8 "-", 0, 0⟩, ⟨.number, s, 0, 1⟩⟩, rfl, ⟨rfl, by simp⟩, ?_, hreads⟩
    simpa [Literal.tokens] using ⟨hminus, hnumber⟩

/-- A literal of the kind is drawn. -/
theorem signed_yields (k : Kind) :
    Yields ds (signed k) fun s => s.length ≤ 10 ∧ ∃ l, IsLiteral k s l := by
  refine sign_yields.bind fun sign hsign => (unsigned_yields k).bind fun s hs => ?_
  refine .pure ⟨⟨?_, exists_isLiteral hsign hs⟩, rfl⟩
  have h₁ : sign.length ≤ 1 := by
    rcases hsign with rfl | rfl | rfl <;> decide
  have h₂ := hs.length_le
  rw [List.length_append]
  omega

end LineCalc.Sampler
