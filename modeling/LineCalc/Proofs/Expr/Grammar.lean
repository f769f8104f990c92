import LineCalc.Statement.Parser
import Mathlib.Order.Lattice
/-!
# The grammar of expressions

Which trees the tokens of an expression can stand for, said on the trees alone, and that the
parser finds exactly these.

* `Expr.Shaped` : the tree groups its operators as their precedences ask;
* `Expr.nest` : how deep operands are nested in it;
* `Expr.parse_eq_ok_iff` : the parser returns a tree just if the tree is shaped, is nested within
  the limit and has the given tokens;
* `Expr.exists_isTreeOf_chain` : operators between single operands never nest too deep;
* `Statement.parse_print_iff_shaped` : the same of print lines.
-/
namespace LineCalc

namespace Expr

/-! ## The shape of a tree -/

/-- Whether a binary operator stands at the root. -/
def isBinary : Expr → Bool
  | binary .. => true
  | _ => false

/-- Whether a sum or a difference stands at the root. -/
def isSum : Expr → Bool
  | binary t _ _ => t.kind == .plus || t.kind == .minus
  | _ => false

/-- A tree with a binary operator at its root, taken apart. -/
theorem exists_of_isBinary {e : Expr} (h : e.isBinary) : ∃ t l r, e = binary t l r := by
  cases e with
  | binary t l r => exact ⟨t, l, r, rfl⟩
  | number l => cases h
  | ident t => cases h
  | unary t e => cases h

/-- The tree groups its operators by their precedences, and to the left among equals: a sign has
no binary operand, a product has sums on neither side and no product on its right, and a sum has no
sum on its right. -/
def Shaped : Expr → Prop
  | number l => l.sign = none ∧ l.number.kind = .number
  | ident t => t.kind = .ident
  | unary t e => (t.kind = .plus ∨ t.kind = .minus) ∧ e.isBinary = false ∧ e.Shaped
  | binary t l r =>
      ((t.kind = .plus ∨ t.kind = .minus) ∧ r.isSum = false ∨
        (t.kind = .times ∨ t.kind = .slash) ∧ l.isSum = false ∧ r.isBinary = false) ∧
      l.Shaped ∧ r.Shaped

/-- Whether a tree is shaped can be computed. -/
instance decidableShaped : (e : Expr) → Decidable e.Shaped
  | number l => inferInstanceAs (Decidable (l.sign = none ∧ l.number.kind = .number))
  | ident t => inferInstanceAs (Decidable (t.kind = .ident))
  | unary t e =>
      have := decidableShaped e
      inferInstanceAs (Decidable ((t.kind = .plus ∨ t.kind = .minus) ∧ e.isBinary = false ∧
        e.Shaped))
  | binary t l r =>
      have := decidableShaped l
      have := decidableShaped r
      inferInstanceAs (Decidable (
        ((t.kind = .plus ∨ t.kind = .minus) ∧ r.isSum = false ∨
          (t.kind = .times ∨ t.kind = .slash) ∧ l.isSum = false ∧ r.isBinary = false) ∧
        l.Shaped ∧ r.Shaped))

/-- How deep operands are nested.  A sign nests its operand and a binary operator its right one;
the left operand of a chain is no deeper than the chain. -/
def nest : Expr → Nat
  | number _ => 1
  | ident _ => 1
  | unary _ e => 1 + e.nest
  | binary _ l r => max l.nest (1 + r.nest)

/-- Every tree has tokens. -/
theorem tokens_length_pos (e : Expr) : 0 < e.tokens.length := by
  cases e with
  | binary t l r => exact List.length_pos_of_mem (List.mem_append_right _ List.mem_cons_self)
  | number l => simp [tokens]
  | ident t => simp [tokens]
  | unary t e => simp [tokens]

/-- Every tree is nested at least once. -/
theorem one_le_nest (e : Expr) : 1 ≤ e.nest := by
  induction e with
  | number l => exact le_rfl
  | ident t => exact le_rfl
  | unary t e ih => exact Nat.le_add_right 1 e.nest
  | binary t l r ihl ihr => exact le_trans ihl (le_max_left _ _)

/-! ## The shape by levels -/

/-- How tightly the root of a tree binds: as its operator does, and tighter than any operator
without one. -/
def rank : Expr → Nat
  | binary t _ _ => t.kind.precedence
  | _ => signPrecedence + 1

/-- No operator binds tighter than a product. -/
theorem precedence_le (k : TokenKind) : k.precedence ≤ 2 := by
  cases k <;> simp [TokenKind.precedence]

/-- The operators of sums. -/
theorem precedence_eq_one_iff (k : TokenKind) :
    k.precedence = 1 ↔ k = .plus ∨ k = .minus := by
  cases k <;> simp [TokenKind.precedence]

/-- The operators of products. -/
theorem precedence_eq_two_iff (k : TokenKind) :
    k.precedence = 2 ↔ k = .times ∨ k = .slash := by
  cases k <;> simp [TokenKind.precedence]

/-- The four operators are the tokens that bind. -/
theorem precedence_pos_iff (k : TokenKind) : 0 < k.precedence ↔ k.isOperator := by
  cases k <;> simp [TokenKind.precedence, TokenKind.isOperator]

/-- A tree without a binary operator at its root binds tighter than any operator. -/
theorem two_lt_rank_iff (e : Expr) : 2 < e.rank ↔ e.isBinary = false := by
  cases e with
  | binary t l r => simp [rank, isBinary, precedence_le]
  | number l => simp [rank, isBinary, signPrecedence]
  | ident t => simp [rank, isBinary, signPrecedence]
  | unary t e => simp [rank, isBinary, signPrecedence]

/-- Signs bind as tightly as operators can, so only a binary root is looser. -/
theorem sign_lt_rank_iff (e : Expr) : signPrecedence < e.rank ↔ e.isBinary = false := by
  rw [← two_lt_rank_iff]
  cases e with
  | binary t l r =>
      have h := precedence_le t.kind
      simp only [rank, signPrecedence]
      omega
  | number l => simp [rank, signPrecedence]
  | ident t => simp [rank, signPrecedence]
  | unary t e => simp [rank, signPrecedence]

/-- A shaped tree with an operator at its root has one of the four. -/
theorem Shaped.rank_pos {e : Expr} (h : e.Shaped) : 0 < e.rank := by
  cases e with
  | binary t l r =>
      obtain ⟨⟨ht, -⟩ | ⟨ht, -, -⟩, -, -⟩ := h
      · rw [← precedence_eq_one_iff] at ht
        simp [rank, ht]
      · rw [← precedence_eq_two_iff] at ht
        simp [rank, ht]
  | number l => simp [rank]
  | ident t => simp [rank]
  | unary t e => simp [rank]

/-- A shaped tree that is no sum binds tighter than sums. -/
theorem Shaped.one_lt_rank_iff {e : Expr} (h : e.Shaped) : 1 < e.rank ↔ e.isSum = false := by
  cases e with
  | binary t l r =>
      have hpos := h.rank_pos
      have hsum := precedence_eq_one_iff t.kind
      simp only [rank] at hpos ⊢
      simp only [isSum, Bool.or_eq_false_iff, beq_eq_false_iff_ne, ← not_or, ne_eq, ← hsum]
      omega
  | number l => simp [rank, isSum, signPrecedence]
  | ident t => simp [rank, isSum, signPrecedence]
  | unary t e => simp [rank, isSum, signPrecedence]

/-- The shape of a binary tree by levels: its left operand binds at least as tightly as the
operator, its right one tighter. -/
theorem shaped_binary_iff (t : Token) (l r : Expr) :
    (binary t l r).Shaped ↔ 0 < t.kind.precedence ∧ t.kind.precedence ≤ l.rank ∧
      t.kind.precedence < r.rank ∧ l.Shaped ∧ r.Shaped := by
  constructor
  · rintro ⟨⟨ht, hr⟩ | ⟨ht, hl, hr⟩, hls, hrs⟩
    · rw [(precedence_eq_one_iff _).2 ht]
      exact ⟨Nat.one_pos, hls.rank_pos, hrs.one_lt_rank_iff.2 hr, hls, hrs⟩
    · rw [(precedence_eq_two_iff _).2 ht]
      exact ⟨Nat.two_pos, hls.one_lt_rank_iff.2 hl, (two_lt_rank_iff r).2 hr, hls, hrs⟩
  · rintro ⟨hpos, hl, hr, hls, hrs⟩
    refine ⟨?_, hls, hrs⟩
    have hle := precedence_le t.kind
    obtain h | h : t.kind.precedence = 1 ∨ t.kind.precedence = 2 := by omega
    · rw [h] at hr
      exact .inl ⟨(precedence_eq_one_iff _).1 h, hrs.one_lt_rank_iff.1 hr⟩
    · rw [h] at hl hr
      exact .inr ⟨(precedence_eq_two_iff _).1 h, hls.one_lt_rank_iff.1 hl,
        (two_lt_rank_iff r).1 hr⟩

/-! ## Climbing -/

/-- How tightly the first of the tokens binds to what stands before it. -/
def nextPrecedence : List Token → Nat
  | [] => 0
  | t :: _ => t.kind.precedence

/-- No token binds tighter than a product. -/
theorem nextPrecedence_le (ts : List Token) : nextPrecedence ts ≤ 2 := by
  cases ts with
  | nil => exact Nat.zero_le 2
  | cons t r => exact precedence_le t.kind

/-- Climbing stops in front of a token that does not bind tighter than the level. -/
theorem climb_of_le {bound level : Nat} {left : Expr} {rest : List Token}
    {operand : Nat → (ts : List Token) → Except Failure (Parsed ts.length)}
    (h : rest.length < bound) (hle : nextPrecedence rest ≤ level) :
    climb operand level left rest h = .ok ⟨left, rest, h⟩ := by
  cases rest with
  | nil => rw [climb]
  | cons t r =>
      have hge : ¬ level < t.kind.precedence := Nat.not_lt.2 hle
      rw [climb, if_neg hge]

/-- Climbing over an operator that binds tighter than the level takes its right operand in. -/
theorem climb_cons_of_lt {bound level : Nat} {left : Expr} {t : Token} {r : List Token}
    {operand : Nat → (ts : List Token) → Except Failure (Parsed ts.length)} {p : Parsed r.length}
    (h : (t :: r).length < bound) (hlt : level < t.kind.precedence)
    (hp : operand t.kind.precedence r = .ok p) (h' : p.rest.length < bound) :
    climb operand level left (t :: r) h =
      climb operand level (.binary t left p.expr) p.rest h' := by
  rw [climb, if_pos hlt, hp]

/-! ## One operand -/

/-- A number is read and climbing goes on from it. -/
theorem parseAt_number {depth level : Nat} {t : Token} {r : List Token} (ht : t.kind = .number) :
    parseAt (depth + 1) level (t :: r) =
      climb (parseAt depth) level (.number ⟨none, t⟩) r (Nat.lt_succ_self _) := by
  rw [parseAt]
  simp only [ht]

/-- A name is read and climbing goes on from it. -/
theorem parseAt_ident {depth level : Nat} {t : Token} {r : List Token} (ht : t.kind = .ident) :
    parseAt (depth + 1) level (t :: r) =
      climb (parseAt depth) level (.ident t) r (Nat.lt_succ_self _) := by
  rw [parseAt]
  simp only [ht]

/-- A sign takes the operand behind it, and climbing goes on from both. -/
theorem parseAt_sign {depth level : Nat} {t : Token} {r : List Token}
    (ht : t.kind = .plus ∨ t.kind = .minus) :
    parseAt (depth + 1) level (t :: r) =
      match parseAt depth signPrecedence r with
      | .error f => .error f
      | .ok p =>
        climb (parseAt depth) level (.unary t p.expr) p.rest (Nat.lt_succ_of_lt p.rest_lt) := by
  rw [parseAt]
  rcases ht with ht | ht <;> cases parseAt depth signPrecedence r <;> simp only [ht]

/-- No expression starts with a token that is no operand and no sign. -/
theorem parseAt_other {depth level : Nat} {t : Token} {r : List Token} (hnumber : t.kind ≠ .number)
    (hident : t.kind ≠ .ident) (hsign : ¬ (t.kind = .plus ∨ t.kind = .minus)) :
    parseAt (depth + 1) level (t :: r) = .error (.unexpected (some t)) := by
  rw [parseAt]
  split
  · next h => exact absurd h hnumber
  · next h => exact absurd h hident
  · next h => exact absurd (.inl h) hsign
  · next h => exact absurd (.inr h) hsign
  · rfl

/-! ## What is read is shaped -/

/-- What a reading at a level yields from its tokens: a shaped tree of the first of them, nested
within the depth, that binds tighter than the level and stops where it should. -/
structure Reads (depth level : Nat) (ts : List Token) (e : Expr) (rest : List Token) : Prop where
  shaped : e.Shaped
  tokens : e.tokens ++ rest = ts
  nest_le : e.nest ≤ depth
  level_lt : level < e.rank
  next_le : nextPrecedence rest ≤ level

/-- Climbing from a tree that was read so far ends with a reading, if the operands are readings
one level of nesting further down. -/
theorem reads_of_climb {depth bound level : Nat} {left : Expr} {rest ts : List Token}
    {operand : Nat → (ts : List Token) → Except Failure (Parsed ts.length)}
    (hoperand : ∀ level ts p, level ≤ signPrecedence → operand level ts = .ok p →
      Reads depth level ts p.expr p.rest)
    (h : rest.length < bound) {p : Parsed bound}
    (hleft : left.Shaped) (htokens : left.tokens ++ rest = ts) (hnest : left.nest ≤ depth + 1)
    (hlevel : level < left.rank) (hnext : nextPrecedence rest ≤ left.rank)
    (hp : climb operand level left rest h = .ok p) :
    Reads (depth + 1) level ts p.expr p.rest := by
  -- each turn hangs one more operand below the tree read so far, which stays shaped because the
  -- operator in front binds no tighter than its root
  fun_induction climb operand level left rest h with
  | case1 left h =>
      cases hp
      exact ⟨hleft, htokens, hnest, hlevel, Nat.zero_le _⟩
  | case2 left t r h hlt f hf => cases hp
  | case3 left t r h hlt q hq hqr _ ih =>
      have htight : t.kind.precedence ≤ signPrecedence :=
        le_trans (precedence_le t.kind) (by decide)
      obtain ⟨hshaped, hqt, hqn, hql, hqx⟩ := hoperand _ _ _ htight hq
      refine ih ?_ ?_ ?_ hlt hqx hp
      · exact (shaped_binary_iff t left q.expr).2
          ⟨Nat.zero_lt_of_lt hlt, hnext, hql, hleft, hshaped⟩
      · calc (binary t left q.expr).tokens ++ q.rest
            = left.tokens ++ t :: (q.expr.tokens ++ q.rest) := by simp [Expr.tokens]
          _ = ts := by rw [hqt, htokens]
      · exact max_le hnest (by omega)
  | case4 left t r h hge =>
      cases hp
      exact ⟨hleft, htokens, hnest, hlevel, Nat.not_lt.1 hge⟩

/-- Every expression that is read is a reading. -/
theorem reads_of_parseAt (depth : Nat) :
    ∀ (level : Nat) (ts : List Token) (p : Parsed ts.length), level ≤ signPrecedence →
      parseAt depth level ts = .ok p → Reads depth level ts p.expr p.rest := by
  induction depth with
  | zero =>
      intro level ts p _ hp
      rw [parseAt] at hp
      cases hp
  | succ depth ih =>
      intro level ts p hlevel hp
      -- an operand without binary operators is where climbing starts
      have hstart : ∀ (e : Expr) (rest : List Token) (h : rest.length < ts.length),
          e.Shaped → e.tokens ++ rest = ts → e.nest ≤ depth + 1 → e.isBinary = false →
          climb (parseAt depth) level e rest h = .ok p →
          Reads (depth + 1) level ts p.expr p.rest := by
        intro e rest h hshaped htokens hnest hatom hclimb
        have hrank : signPrecedence < e.rank := (sign_lt_rank_iff e).2 hatom
        have hnext : nextPrecedence rest ≤ e.rank :=
          le_trans (nextPrecedence_le rest) ((two_lt_rank_iff e).2 hatom).le
        exact reads_of_climb ih h hshaped htokens hnest (by omega) hnext hclimb
      cases ts with
      | nil =>
          rw [parseAt] at hp
          cases hp
      | cons t r =>
          by_cases hnumber : t.kind = .number
          · rw [parseAt_number hnumber] at hp
            exact hstart (.number ⟨none, t⟩) r _ ⟨rfl, hnumber⟩ rfl (by simp [nest]) rfl hp
          by_cases hident : t.kind = .ident
          · rw [parseAt_ident hident] at hp
            exact hstart (.ident t) r _ hident rfl (by simp [nest]) rfl hp
          by_cases hsign : t.kind = .plus ∨ t.kind = .minus
          · rw [parseAt_sign hsign] at hp
            split at hp
            · cases hp
            · next q hq =>
                obtain ⟨hshaped, htokens, hnest, hrank, -⟩ := ih _ _ _ le_rfl hq
                refine hstart (.unary t q.expr) q.rest _ ?_ ?_ ?_ rfl hp
                · exact ⟨hsign, (sign_lt_rank_iff _).1 hrank, hshaped⟩
                · exact congrArg (t :: ·) htokens
                · simp only [nest]
                  omega
          · rw [parseAt_other hnumber hident hsign] at hp
            cases hp

/-! ## What is shaped is read -/

/-- Reading the tokens of a shaped tree takes it in whole and climbs on from it, whatever comes
after it, as long as its root keeps what it has: the first token after it binds no tighter. -/
theorem parseAt_tokens (e : Expr) :
    ∀ (depth level : Nat) (rest ts : List Token) (h : rest.length < ts.length), e.Shaped →
      e.tokens ++ rest = ts → e.nest ≤ depth + 1 → level < e.rank →
      nextPrecedence rest ≤ e.rank →
      parseAt (depth + 1) level ts = climb (parseAt depth) level e rest h := by
  -- that climbing goes on from `e`, and not that `e` is the result, lets a left operand be read in
  -- front of its operator
  induction e with
  | number l =>
      rintro depth level rest ts h ⟨hsign, hnumber⟩ rfl - - -
      obtain ⟨sign, t⟩ := l
      cases hsign
      exact parseAt_number hnumber
  | ident t =>
      rintro depth level rest ts h hident rfl - - -
      exact parseAt_ident hident
  | unary t e ih =>
      rintro depth level rest ts h ⟨hsign, hatom, hshaped⟩ rfl hnest hlevel hnext
      simp only [nest] at hnest
      obtain ⟨depth, rfl⟩ : ∃ d, depth = d + 1 := ⟨depth - 1, by have := one_le_nest e; omega⟩
      have hrank := (sign_lt_rank_iff e).2 hatom
      -- nothing binds tighter than a sign, so its operand ends in front of any operator
      have htight : nextPrecedence rest ≤ signPrecedence :=
        le_trans (nextPrecedence_le rest) (by decide)
      have hlt : rest.length < (e.tokens ++ rest).length := by
        have := e.tokens_length_pos
        rw [List.length_append]
        omega
      have hoperand : parseAt (depth + 1) signPrecedence (e.tokens ++ rest) =
          .ok ⟨e, rest, hlt⟩ := by
        rw [ih depth signPrecedence rest _ hlt hshaped rfl (by omega) hrank (by omega),
          climb_of_le _ htight]
      show parseAt (depth + 1 + 1) level (t :: (e.tokens ++ rest)) = _
      rw [parseAt_sign hsign, hoperand]
      rfl
  | binary t l r ihl ihr =>
      rintro depth level rest ts h hshaped htokens hnest hlevel hnext
      obtain ⟨-, hl, hr, hls, hrs⟩ := (shaped_binary_iff t l r).1 hshaped
      simp only [nest, Nat.max_le] at hnest
      simp only [rank] at hlevel hnext
      obtain ⟨depth, rfl⟩ : ∃ d, depth = d + 1 := ⟨depth - 1, by have := one_le_nest r; omega⟩
      have hsplit : l.tokens ++ t :: (r.tokens ++ rest) = ts := by
        rw [← htokens]
        simp [Expr.tokens]
      have hlt : (t :: (r.tokens ++ rest)).length < ts.length := by
        have := l.tokens_length_pos
        rw [← hsplit, List.length_append]
        omega
      have hrlt : rest.length < (r.tokens ++ rest).length := by
        have := r.tokens_length_pos
        rw [List.length_append]
        omega
      -- the right operand is read one level deeper and ends where the whole tree does
      have hright : parseAt (depth + 1) t.kind.precedence (r.tokens ++ rest) =
          .ok ⟨r, rest, hrlt⟩ := by
        rw [ihr depth t.kind.precedence rest _ hrlt hrs rfl (by omega) hr (by omega),
          climb_of_le _ hnext]
      rw [ihl (depth + 1) level (t :: (r.tokens ++ rest)) ts hlt hls hsplit hnest.1 (by omega) hl,
        climb_cons_of_lt hlt hlevel hright h]

/-! ## The parser and the grammar -/

/-- The tree of an expression: its tokens are the given ones, it is shaped, and it is nested within
the limit. -/
structure IsTreeOf (e : Expr) (ts : List Token) : Prop where
  tokens : e.tokens = ts
  shaped : e.Shaped
  nest_le : e.nest ≤ nestingLimit

/-- **The parser and the grammar agree.**  The parser returns a tree just if it is the tree of the
tokens. -/
theorem parse_eq_ok_iff (ts : List Token) (e : Expr) : parse ts = .ok e ↔ e.IsTreeOf ts := by
  constructor
  · intro h
    rw [parse] at h
    split at h
    · cases h
    · split at h
      · cases h
      · next hp =>
          cases h
          have hreads := reads_of_parseAt _ _ _ _ (Nat.zero_le _) hp
          exact ⟨by simpa using hreads.tokens, hreads.shaped, hreads.nest_le⟩
      · cases h
  · rintro ⟨rfl, hshaped, hnest⟩
    have hpos := e.tokens_length_pos
    have hparse : parseAt nestingLimit 0 e.tokens = .ok ⟨e, [], hpos⟩ := by
      show parseAt (999 + 1) 0 e.tokens = _
      rw [parseAt_tokens e 999 0 [] e.tokens hpos hshaped (by simp) hnest hshaped.rank_pos
        (Nat.zero_le _)]
      exact climb_of_le hpos le_rfl
    rw [parse, if_neg (by simpa using List.ne_nil_of_length_pos hpos), hparse]

/-- Tokens have at most one tree. -/
theorem IsTreeOf.unique {e e' : Expr} {ts : List Token} (h : e.IsTreeOf ts)
    (h' : e'.IsTreeOf ts) : e = e' := by
  rw [← parse_eq_ok_iff] at h h'
  rw [h] at h'
  exact Except.ok.inj h'

/-! ## Chains -/

/-- The operands that the binary operators of a tree join, from left to right. -/
def operands : Expr → List Expr
  | binary _ l r => l.operands ++ r.operands
  | e => [e]

/-- A tree without a binary operator at its root is its own operand. -/
theorem operands_of_isBinary_eq_false {e : Expr} (h : e.isBinary = false) : e.operands = [e] := by
  cases e with
  | binary t l r => cases h
  | number l => rfl
  | ident t => rfl
  | unary t e => rfl

/-- Binary operators add at most two levels of nesting to that of the operands they join, and
products only one. -/
theorem Shaped.nest_le_of_operands {e : Expr} {n : Nat} (h : e.Shaped)
    (hn : ∀ a ∈ e.operands, a.nest ≤ n) :
    e.nest ≤ n + 2 ∧ (e.isSum = false → e.nest ≤ n + 1) ∧ (e.isBinary = false → e.nest ≤ n) := by
  induction e with
  | number l =>
      have := hn _ (List.mem_singleton_self _)
      omega
  | ident t =>
      have := hn _ (List.mem_singleton_self _)
      omega
  | unary t e ih =>
      have := hn _ (List.mem_singleton_self _)
      omega
  | binary t l r ihl ihr =>
      obtain ⟨hshape, hl, hr⟩ := h
      have hl' := ihl hl fun a ha => hn a (List.mem_append_left _ ha)
      have hr' := ihr hr fun a ha => hn a (List.mem_append_right _ ha)
      simp only [nest, Nat.max_le, isBinary]
      rcases hshape with ⟨ht, hrsum⟩ | ⟨ht, hlsum, hrbin⟩
      · have hsum : (binary t l r).isSum = true := by
          rcases ht with ht | ht <;> simp [isSum, ht]
        have hr2 := hr'.2.1 hrsum
        exact ⟨⟨hl'.1, by omega⟩, fun h => absurd (hsum.symm.trans h) (by simp), by simp⟩
      · have hl2 := hl'.2.1 hlsum
        have hr2 := hr'.2.2 hrbin
        exact ⟨⟨hl'.1, by omega⟩, fun _ => ⟨hl2, by omega⟩, by simp⟩

/-- A tree with one more operator and operand behind it.  If the operator binds tighter than the
root, it takes only the right operand of that. -/
def graft (e : Expr) (op : Token) (a : Expr) : Expr :=
  match e with
  | binary t l r =>
      if t.kind.precedence < op.kind.precedence then binary t l (binary op r a)
      else binary op (binary t l r) a
  | e => binary op e a

/-- A tree without a binary operator at its root becomes the left operand. -/
theorem graft_of_isBinary_eq_false {e : Expr} (op : Token) (a : Expr) (h : e.isBinary = false) :
    e.graft op a = binary op e a := by
  cases e with
  | binary t l r => cases h
  | number l => rfl
  | ident t => rfl
  | unary t e => rfl

/-- Grafting puts the tokens at the end. -/
theorem tokens_graft (e : Expr) (op : Token) (a : Expr) :
    (e.graft op a).tokens = e.tokens ++ op :: a.tokens := by
  cases hbin : e.isBinary with
  | false => rw [graft_of_isBinary_eq_false op a hbin, tokens]
  | true =>
      obtain ⟨t, l, r, rfl⟩ := exists_of_isBinary hbin
      simp only [graft]
      split <;> simp [tokens]

/-- Grafting puts the operand at the end. -/
theorem operands_graft (e : Expr) (op : Token) (a : Expr) (ha : a.isBinary = false) :
    (e.graft op a).operands = e.operands ++ [a] := by
  have haself := operands_of_isBinary_eq_false ha
  cases hbin : e.isBinary with
  | false => rw [graft_of_isBinary_eq_false op a hbin, operands, haself]
  | true =>
      obtain ⟨t, l, r, rfl⟩ := exists_of_isBinary hbin
      simp only [graft]
      split <;> simp [operands, haself]

/-- Grafting keeps the shape. -/
theorem Shaped.graft {op : Token} {a e : Expr} (hop : op.kind.isOperator) (ha : a.Shaped)
    (hatom : a.isBinary = false) (he : e.Shaped) : (e.graft op a).Shaped := by
  have hpos := (precedence_pos_iff op.kind).2 hop
  have hle := precedence_le op.kind
  have harank := (two_lt_rank_iff a).2 hatom
  have hjoin : ∀ e : Expr, e.Shaped → op.kind.precedence ≤ e.rank → (binary op e a).Shaped :=
    fun e he hrank => (shaped_binary_iff op e a).2 ⟨hpos, hrank, by omega, he, ha⟩
  cases hbin : e.isBinary with
  | false =>
      have hrank := (two_lt_rank_iff e).2 hbin
      rw [graft_of_isBinary_eq_false op a hbin]
      exact hjoin e he (by omega)
  | true =>
      obtain ⟨t, l, r, rfl⟩ := exists_of_isBinary hbin
      obtain ⟨htpos, hl, hr, hls, hrs⟩ := (shaped_binary_iff t l r).1 he
      simp only [Expr.graft]
      split
      · next hlt =>
          refine (shaped_binary_iff t l _).2 ⟨htpos, hl, hlt, hls, hjoin r hrs ?_⟩
          omega
      · next hge => exact hjoin _ he (Nat.not_lt.1 hge)

/-- The tree of a first operand and of operators with an operand behind each. -/
def chain (first : Expr) (more : List (Token × Expr)) : Expr :=
  more.foldl (fun e p => e.graft p.1 p.2) first

/-- An operand of a chain: a shaped tree without binary operators at its root that is nested at
most `n` deep. -/
structure IsOperand (n : Nat) (e : Expr) : Prop where
  shaped : e.Shaped
  isBinary : e.isBinary = false
  nest_le : e.nest ≤ n

/-- A chain of operands is the tree of its tokens, however many operators it has. -/
theorem chain_isTreeOf {n : Nat} (hn : n + 2 ≤ nestingLimit) (first : Expr)
    (more : List (Token × Expr)) (hfirst : first.IsOperand n)
    (hmore : ∀ p ∈ more, p.1.kind.isOperator ∧ p.2.IsOperand n) :
    (chain first more).IsTreeOf (first.tokens ++ more.flatMap fun p => p.1 :: p.2.tokens) := by
  -- the chain that is built so far, with its tokens, shape and operands
  have hbuilt : ∀ (more : List (Token × Expr)) (e : Expr), e.Shaped →
      (∀ a ∈ e.operands, a.nest ≤ n) →
      (∀ p ∈ more, p.1.kind.isOperator ∧ p.2.IsOperand n) →
      (chain e more).tokens = e.tokens ++ (more.flatMap fun p => p.1 :: p.2.tokens) ∧
        (chain e more).Shaped ∧ ∀ a ∈ (chain e more).operands, a.nest ≤ n := by
    intro more
    induction more with
    | nil =>
        intro e he hops _
        exact ⟨by simp [chain], he, hops⟩
    | cons p more ih =>
        intro e he hops hall
        obtain ⟨hop, hp⟩ := hall p List.mem_cons_self
        have hgrafted : ∀ a ∈ (e.graft p.1 p.2).operands, a.nest ≤ n := by
          rw [operands_graft _ _ _ hp.isBinary]
          intro a ha
          rcases List.mem_append.1 ha with ha | ha
          · exact hops a ha
          · rw [List.mem_singleton.1 ha]
            exact hp.nest_le
        obtain ⟨htokens, hrest⟩ := ih (e.graft p.1 p.2) (.graft hop hp.shaped hp.isBinary he)
          hgrafted fun q hq => hall q (List.mem_cons_of_mem _ hq)
        refine ⟨?_, hrest⟩
        rw [chain, List.foldl_cons, ← chain, htokens, tokens_graft]
        simp
  have hself := operands_of_isBinary_eq_false hfirst.isBinary
  obtain ⟨htokens, hshaped, hops⟩ := hbuilt more first hfirst.shaped
    (by rw [hself]; simpa using hfirst.nest_le) hmore
  exact ⟨htokens, hshaped, le_trans (hshaped.nest_le_of_operands hops).1 hn⟩

/-- The expression that a single token is. -/
def leaf (t : Token) : Expr := if t.kind = .number then .number ⟨none, t⟩ else .ident t

/-- The leaf of a token has that token only. -/
theorem tokens_leaf (t : Token) : (leaf t).tokens = [t] := by
  unfold leaf
  split <;> rfl

/-- The leaf of an operand token is an operand that is not nested further. -/
theorem leaf_isOperand {t : Token} (ht : t.kind.isOperand) : (leaf t).IsOperand 1 := by
  unfold leaf
  split
  · next h => exact ⟨⟨rfl, h⟩, rfl, le_rfl⟩
  · next h =>
      have hident : t.kind = .ident := by
        cases hk : t.kind <;> simp_all [TokenKind.isOperand]
      exact ⟨hident, rfl, le_rfl⟩

/-- Operators between single operands never nest too deep, however many there are. -/
theorem exists_isTreeOf_chain (first : Token) (more : List (Token × Token))
    (hfirst : first.kind.isOperand)
    (hmore : ∀ p ∈ more, p.1.kind.isOperator ∧ p.2.kind.isOperand) :
    ∃ e : Expr, e.IsTreeOf (first :: more.flatMap fun p => [p.1, p.2]) := by
  refine ⟨chain (leaf first) (more.map fun p => (p.1, leaf p.2)), ?_⟩
  have htree := chain_isTreeOf (n := 1) (by decide) (leaf first)
    (more.map fun p => (p.1, leaf p.2)) (leaf_isOperand hfirst) (by
      intro q hq
      obtain ⟨p, hp, rfl⟩ := List.mem_map.1 hq
      exact ⟨(hmore p hp).1, leaf_isOperand (hmore p hp).2⟩)
  simpa [List.flatMap_map, tokens_leaf] using htree

end Expr

/-! ## Print statements -/

namespace Statement

/-- The statement of a print line with the given number, text and expression. -/
def printing (number : Int) (line body : Bytes) (e : Expr) : Statement :=
  print ⟨.ident, "print", number, 1⟩ line body (some e)

/-- A print line is read just if its tokens up to the end have a tree, and prints that. -/
theorem parse_print_eq_ok_iff {number : Int} {line body : Bytes} {ts : List Token} {s : Statement} :
    parse number .print line body ts = .ok s ↔
      ∃ e : Expr, e.IsTreeOf (ts.takeWhile (·.kind != .eof)) ∧ s = printing number line body e := by
  simp only [← Expr.parse_eq_ok_iff, parse]
  cases Expr.parse (ts.takeWhile (·.kind != .eof)) with
  | error f => simp [Except.map]
  | ok e => simp [Except.map, printing, eq_comm]

/-- The tokens of a line up to its end. -/
theorem takeWhile_append_end {ts : List Token} {last : Token} (hts : ∀ t ∈ ts, t.kind ≠ .eof)
    (hlast : last.kind = .eof) : (ts ++ [last]).takeWhile (·.kind != .eof) = ts := by
  rw [List.takeWhile_append_of_pos (by simpa using hts)]
  simp [hlast]

/-- **A print line is read just if its tokens have a tree of the right shape.**  The tree reads
left to right as the tokens, groups them by precedence and is nested at most a thousand deep; no
other tree is returned, and nothing is if there is none.  Tokens have at most one such tree, and
operators between single operands always have one. -/
theorem parse_print_iff_shaped (number : Int) (line body : Bytes) (ts : List Token) (last : Token)
    (hts : ∀ t ∈ ts, t.kind ≠ .eof) (hlast : last.kind = .eof) :
    (∀ e : Expr, parse number .print line body (ts ++ [last]) = .ok (printing number line body e) ↔
      e.tokens = ts ∧ e.Shaped ∧ e.nest ≤ 1000) ∧
    ((¬ ∃ e : Expr, e.tokens = ts ∧ e.Shaped ∧ e.nest ≤ 1000) →
      ∃ f, parse number .print line body (ts ++ [last]) = .error f) ∧
    (∀ e e' : Expr, (e.tokens = ts ∧ e.Shaped ∧ e.nest ≤ 1000) →
      (e'.tokens = ts ∧ e'.Shaped ∧ e'.nest ≤ 1000) → e = e') ∧
    (∀ (first : Token) (more : List (Token × Token)), first.kind.isOperand →
      (∀ p ∈ more, p.1.kind.isOperator ∧ p.2.kind.isOperand) →
      ts = first :: (more.flatMap fun p => [p.1, p.2]) →
      ∃ e, parse number .print line body (ts ++ [last]) = .ok (printing number line body e)) := by
  have htree : ∀ e : Expr, (e.tokens = ts ∧ e.Shaped ∧ e.nest ≤ 1000) ↔ e.IsTreeOf ts :=
    fun e => ⟨fun h => ⟨h.1, h.2.1, h.2.2⟩, fun h => ⟨h.tokens, h.shaped, h.nest_le⟩⟩
  have hparse : ∀ s, parse number .print line body (ts ++ [last]) = .ok s ↔
      ∃ e : Expr, e.IsTreeOf ts ∧ s = printing number line body e := by
    intro s
    rw [parse_print_eq_ok_iff, takeWhile_append_end hts hlast]
  simp only [htree]
  refine ⟨?_, ?_, ?_, ?_⟩
  · intro e
    rw [hparse]
    constructor
    · rintro ⟨e', he', heq⟩
      simp only [printing, print.injEq, Option.some.injEq, true_and] at heq
      rwa [heq]
    · intro he
      exact ⟨e, he, rfl⟩
  · intro hnone
    cases h : parse number .print line body (ts ++ [last]) with
    | error f => exact ⟨f, rfl⟩
    | ok s =>
        obtain ⟨e, he, -⟩ := (hparse s).1 h
        exact absurd ⟨e, he⟩ hnone
  · intro e e' he he'
    exact he.unique he'
  · rintro first more hfirst hmore rfl
    obtain ⟨e, he⟩ := Expr.exists_isTreeOf_chain first more hfirst hmore
    exact ⟨e, (hparse _).2 ⟨e, he, rfl⟩⟩

/-- `1-2*-x` is read as the difference of `1` and a product. -/
theorem parse_print_sum_of_product :
    parse 1 .print "print(1-2*-x);" "1-2*-x"
        ([⟨.number, "1", 1, 1⟩, ⟨.minus, "-", 1, 2⟩, ⟨.number, "2", 1, 3⟩, ⟨.times, "*", 1, 4⟩,
          ⟨.minus, "-", 1, 5⟩, ⟨.ident, "x", 1, 6⟩] ++ [⟨.eof, "", 1, 7⟩]) =
      .ok (printing 1 "print(1-2*-x);" "1-2*-x"
        (.binary ⟨.minus, "-", 1, 2⟩ (.number ⟨none, ⟨.number, "1", 1, 1⟩⟩)
          (.binary ⟨.times, "*", 1, 4⟩ (.number ⟨none, ⟨.number, "2", 1, 3⟩⟩)
            (.unary ⟨.minus, "-", 1, 5⟩ (.ident ⟨.ident, "x", 1, 6⟩))))) :=
  ((parse_print_iff_shaped 1 "print(1-2*-x);" "1-2*-x"
    [⟨.number, "1", 1, 1⟩, ⟨.minus, "-", 1, 2⟩, ⟨.number, "2", 1, 3⟩, ⟨.times, "*", 1, 4⟩,
      ⟨.minus, "-", 1, 5⟩, ⟨.ident, "x", 1, 6⟩] ⟨.eof, "", 1, 7⟩ (by simp) rfl).1 _).2
    ⟨rfl, by decide, by decide⟩

end Statement

end LineCalc
