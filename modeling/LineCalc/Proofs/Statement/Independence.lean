import LineCalc.Proofs.Statement.Effect
import LineCalc.Proofs.Expr.Leaves
/-!
# Statements that can change places

Two statements, neither of which writes a name that the other one writes or reads, can be executed
in either order.

* `Statement.reads`, `Statement.Independent` : the names that a statement looks up, and statements
  that have nothing to do with each other;
* `Table.call_comm` : calls about different names can change places, but two new names come in the
  order of their calls;
* `Statement.exec_matches` : a statement does the same on tables that agree where it reads;
* `Statement.commute_of_independent` : independent statements say the same and leave the same,
  whichever comes first.
-/
namespace LineCalc

/-! ## Calls about different names -/

namespace Table

variable {t u t₁ t₂ t₁₂ t₂₁ : Table} {c c₁ c₂ : Call}

/-- Values under different names can be assigned in either order. -/
theorem Symbol.assign_comm {a b : Bytes} (hab : a ≠ b) (v w : Value) (y : Symbol) :
    Symbol.assign b w (Symbol.assign a v y) = Symbol.assign a v (Symbol.assign b w y) := by
  by_cases ha : y.name = a
  · have hb : y.name ≠ b := fun hb => hab (ha.symm.trans hb)
    simp [Symbol.assign, ha, hab]
  · simp only [Symbol.assign, ha, if_false]
    split
    · rfl
    · rfl

/-- Values under different names can be set in either order. -/
theorem set_comm {a b : Bytes} (hab : a ≠ b) (v w : Value) (t : Table) :
    (t.set a v).set b w = (t.set b w).set a v := by
  apply eq_of_symbols_eq
  simp only [set, List.map_map]
  exact List.map_congr_left fun y _ => Symbol.assign_comm hab v w y

/-- A value can be set before or after another variable comes in. -/
theorem set_push {a : Bytes} {v : Value} {y : Symbol} (hay : a ≠ y.name)
    (h : t.symbol? y.name = none) (h' : (t.set a v).symbol? y.name = none) :
    (t.push y h).set a v = (t.set a v).push y h' := by
  apply eq_of_symbols_eq
  simp [set, push, Symbol.assign, Ne.symm hay]

/-- A call that is taken changes what is found under its name only. -/
theorem symbol?_of_call (h : t.call c = .ok u) {n : Bytes} (hn : n ≠ c.name) :
    u.symbol? n = t.symbol? n := by
  rcases call_ok_cases h with ⟨y, -, -, rfl⟩ | ⟨y, hnone, hc, rfl⟩
  · rw [symbol?_set, if_neg hn]
  · rw [symbol?_push, if_neg ((Call.name_of_declaration? hc).1 ▸ hn)]

/-- A name that is there takes the value of its call. -/
theorem eq_set_of_call {y : Symbol} (hy : t.symbol? c.name = some y) (h : t.call c = .ok u) :
    u = t.set c.name c.value := by
  rcases call_ok_cases h with ⟨-, -, -, rfl⟩ | ⟨z, hnone, hc, -⟩
  · rfl
  · rw [(Call.name_of_declaration? hc).1, hy] at hnone
    cases hnone

/-- A name that is not there comes in last. -/
theorem eq_push_of_call (hnone : t.symbol? c.name = none) (h : t.call c = .ok u) :
    ∃ (y : Symbol) (hy : t.symbol? y.name = none), c.declaration? = some y ∧ u = t.push y hy := by
  rcases call_ok_cases h with ⟨y, hy, -, -⟩ | hpush
  · rw [hnone] at hy
    cases hy
  · exact hpush

/-- **Calls about different names can change places** if one of the names is there. -/
theorem call_comm_of_found (hne : c₁.name ≠ c₂.name) (hfound : t.symbol? c₁.name ≠ none)
    (h₁ : t.call c₁ = .ok t₁) (h₁₂ : t₁.call c₂ = .ok t₁₂) (h₂ : t.call c₂ = .ok t₂)
    (h₂₁ : t₂.call c₁ = .ok t₂₁) : t₁₂ = t₂₁ := by
  obtain ⟨y, hy⟩ := Option.ne_none_iff_exists'.1 hfound
  have hy₂ : t₂.symbol? c₁.name = some y := (symbol?_of_call h₂ hne).trans hy
  have hother := symbol?_of_call h₁ hne.symm
  rw [eq_set_of_call hy₂ h₂₁]
  obtain rfl := eq_set_of_call hy h₁
  rcases call_ok_cases h₂ with ⟨z, hz, -, rfl⟩ | ⟨z, hnone, hc, rfl⟩
  · rw [eq_set_of_call (hother.trans hz) h₁₂]
    exact set_comm hne _ _ t
  · have hname := (Call.name_of_declaration? hc).1
    obtain ⟨z', hnone', hc', rfl⟩ := eq_push_of_call (hother.trans (hname ▸ hnone)) h₁₂
    obtain rfl : z' = z := Option.some.inj (hc'.symm.trans hc)
    exact (set_push (hname ▸ hne) hnone hnone').symm

/-- **New names come in the order of their calls**, and are found alike in either order. -/
theorem call_comm_of_new (hne : c₁.name ≠ c₂.name) (hnew₁ : t.symbol? c₁.name = none)
    (hnew₂ : t.symbol? c₂.name = none) (h₁ : t.call c₁ = .ok t₁) (h₁₂ : t₁.call c₂ = .ok t₁₂)
    (h₂ : t.call c₂ = .ok t₂) (h₂₁ : t₂.call c₁ = .ok t₂₁) :
    (∀ n, t₁₂.symbol? n = t₂₁.symbol? n) ∧ t₁₂ ≠ t₂₁ := by
  have hnew₂' := (symbol?_of_call h₁ hne.symm).trans hnew₂
  have hnew₁' := (symbol?_of_call h₂ hne).trans hnew₁
  obtain ⟨y, hy, hc₁, rfl⟩ := eq_push_of_call hnew₁ h₁
  obtain ⟨z, hz, hc₂, rfl⟩ := eq_push_of_call hnew₂ h₂
  obtain ⟨z', hz', hc₂', rfl⟩ := eq_push_of_call hnew₂' h₁₂
  obtain ⟨y', hy', hc₁', rfl⟩ := eq_push_of_call hnew₁' h₂₁
  obtain rfl : z' = z := Option.some.inj (hc₂'.symm.trans hc₂)
  obtain rfl : y' = y := Option.some.inj (hc₁'.symm.trans hc₁)
  have hnames : y'.name ≠ z'.name := by
    rw [(Call.name_of_declaration? hc₁).1, (Call.name_of_declaration? hc₂).1]
    exact hne
  refine ⟨?_, ?_⟩
  · intro n
    simp only [symbol?_push]
    by_cases hn : n = y'.name
    · rw [if_pos hn, if_neg (hn ▸ hnames), if_pos hn]
    · rw [if_neg hn, if_neg hn]
  · intro heq
    have hlast : t.symbols ++ [y'] ++ [z'] = t.symbols ++ [z'] ++ [y'] := congrArg symbols heq
    have hzy : [z'] = [y'] := (List.append_inj' hlast rfl).2
    exact hnames (congrArg Symbol.name (List.singleton_inj.1 hzy)).symm

/-- **Calls about different names can change places.**  In the end the same is found under every
name, and the tables are the same unless both names are new. -/
theorem call_comm (hne : c₁.name ≠ c₂.name) (h₁ : t.call c₁ = .ok t₁)
    (h₁₂ : t₁.call c₂ = .ok t₁₂) (h₂ : t.call c₂ = .ok t₂) (h₂₁ : t₂.call c₁ = .ok t₂₁) :
    (∀ n, t₁₂.symbol? n = t₂₁.symbol? n) ∧
      (t₁₂ = t₂₁ ↔ ¬ (t.symbol? c₁.name = none ∧ t.symbol? c₂.name = none)) := by
  by_cases hboth : t.symbol? c₁.name = none ∧ t.symbol? c₂.name = none
  · obtain ⟨halike, hother⟩ := call_comm_of_new hne hboth.1 hboth.2 h₁ h₁₂ h₂ h₂₁
    exact ⟨halike, iff_of_false hother (not_not.2 hboth)⟩
  · have heq : t₁₂ = t₂₁ := by
      rcases not_and_or.1 hboth with hfound | hfound
      · exact call_comm_of_found hne hfound h₁ h₁₂ h₂ h₂₁
      · exact (call_comm_of_found hne.symm hfound h₂ h₂₁ h₁ h₁₂).symm
    exact ⟨fun n => by rw [heq], iff_of_true heq hboth⟩

/-- What a call does depends on what is found under its name only. -/
theorem call_matches (h : u.symbol? c.name = t.symbol? c.name) :
    Except.Matches (· = ·) (fun t' u' => t.call c = .ok t' ∧ u.call c = .ok u')
      (t.call c) (u.call c) := by
  have herror : ∀ e, u.call c = .error e ↔ t.call c = .error e := by
    intro e
    cases c with
    | declare n v line =>
        have h : u.symbol? n = t.symbol? n := h
        rw [call, call, declare_eq_error_iff, declare_eq_error_iff, h]
    | update n v =>
        have h : u.symbol? n = t.symbol? n := h
        rw [call, call, update_eq_error_iff, update_eq_error_iff, h]
  cases ht : t.call c with
  | error e =>
      rw [(herror e).2 ht]
      exact .error rfl
  | ok t' =>
      cases hu : u.call c with
      | error e =>
          rw [(herror e).1 hu] at ht
          cases ht
      | ok u' => exact .ok ⟨rfl, rfl⟩

end Table

/-! ## What a statement reads and writes -/

/-- The names of the variables in an expression, from left to right. -/
def Expr.names (e : Expr) : List Bytes :=
  e.leaves.filterMap fun
    | .name x => some x.lexeme
    | .number _ => none

namespace Statement

/-- The names that a statement looks up. -/
def reads : Statement → List Bytes
  | declaration _ name _ => [name.lexeme]
  | assignment name (.ident source) => [name.lexeme, source.lexeme]
  | assignment name _ => [name.lexeme]
  | print _ _ _ (some value) => value.names
  | print _ _ _ none => []

/-- The first statement writes no name that the second one writes or reads. -/
def Spares (s s' : Statement) : Prop :=
  ∀ n ∈ s.target?, s'.target? ≠ some n ∧ n ∉ s'.reads

/-- Neither statement writes a name that the other one writes or reads. -/
def Independent (s s' : Statement) : Prop := s.Spares s' ∧ s'.Spares s

instance (s s' : Statement) : Decidable (s.Spares s') :=
  decidable_of_iff (s.target?.all fun n => s'.target? ≠ some n ∧ n ∉ s'.reads) (by
    cases h : s.target? with
    | none => simp [Spares, h]
    | some n => simp [Spares, h])

instance (s s' : Statement) : Decidable (s.Independent s') :=
  inferInstanceAs (Decidable (_ ∧ _))

/-- What a statement says: the lines that it writes, or the complaint about it. -/
def said (s : Statement) (t : Table) : Except Diagnostic (List Bytes) := (s.exec t).map Prod.snd

/-- The table after a statement; one that fails leaves it as it is. -/
def after (s : Statement) (t : Table) : Table :=
  match s.exec t with
  | .ok (t', _) => t'
  | .error _ => t

/-- A name is found after the statement that was not found before. -/
def Introduces (s : Statement) (t : Table) : Prop :=
  ∃ n, t.symbol? n = none ∧ (s.after t).symbol? n ≠ none

/-! ## The same statement on two tables -/

/-- The statement leaves both tables as they are, or both take the same call about its target. -/
def ChangesAlike (s : Statement) (t t' u u' : Table) : Prop :=
  t' = t ∧ u' = u ∨ ∃ c, s.target? = some c.name ∧ t.call c = .ok t' ∧ u.call c = .ok u'

variable {s s₁ s₂ : Statement} {t u : Table}

/-- What a declaration does depends on what is found under its name only. -/
theorem execDeclaration_matches {type name : Token} {value : Option Literal}
    (h : u.symbol? name.lexeme = t.symbol? name.lexeme) :
    Except.Matches (· = ·) ((declaration type name value).ChangesAlike t · u ·)
      (execDeclaration t type name value) (execDeclaration u type name value) := by
  refine (Except.Matches.refl (declaredValue type value)).bind ?_
  rintro v _ rfl
  have hcall := Table.call_matches (c := .declare name.lexeme v type.line) h
  refine Except.Matches.mapError ?_ fun _ _ he => congrArg (refusal name) he
  exact hcall.mono fun t' u' h => .inr ⟨_, rfl, h⟩

/-- The value that is assigned depends on the variable that it is taken from only. -/
theorem assignedValue_congr {name : Token} {k : Kind} {value : Expr}
    (h : ∀ n ∈ (assignment name value).reads, u.symbol? n = t.symbol? n) :
    assignedValue u name k value = assignedValue t name k value := by
  cases value with
  | ident source =>
      have hsource : u.find? source.lexeme = t.find? source.lexeme := by
        rw [Table.find?, Table.find?, h source.lexeme (by simp [reads])]
      simp only [assignedValue, hsource]
  | number l => rfl
  | unary op e => rfl
  | binary op l r => rfl

/-- What an assignment does depends on its target and on the variable that it reads. -/
theorem execAssignment_matches {name : Token} {value : Expr}
    (h : ∀ n ∈ (assignment name value).reads, u.symbol? n = t.symbol? n) :
    Except.Matches (· = ·) ((assignment name value).ChangesAlike t · u ·)
      (execAssignment t name value) (execAssignment u name value) := by
  have hname : u.symbol? name.lexeme = t.symbol? name.lexeme :=
    h name.lexeme (by cases value <;> simp [reads])
  have hfind : u.find? name.lexeme = t.find? name.lexeme := by
    rw [Table.find?, Table.find?, hname]
  unfold execAssignment
  rw [hfind]
  cases t.find? name.lexeme with
  | none => exact .error rfl
  | some current =>
      simp only [assignedValue_congr h]
      refine (Except.Matches.refl (assignedValue t name current.kind value)).bind ?_
      rintro v _ rfl
      have hcall := Table.call_matches (c := .update name.lexeme v) hname
      refine Except.Matches.mapError ?_ fun _ _ he => congrArg (refusal name) he
      exact hcall.mono fun t' u' h => .inr ⟨_, rfl, h⟩

/-- The names in an expression are those of its leaves. -/
theorem mem_names {e : Expr} {x : Token} (h : Leaf.name x ∈ e.leaves) : x.lexeme ∈ e.names :=
  List.mem_filterMap.2 ⟨_, h, rfl⟩

/-- **A statement does the same on tables that agree where it reads**: it says the same, and leaves
both as they are or makes the same call on both. -/
theorem exec_matches (h : ∀ n ∈ s.reads, u.symbol? n = t.symbol? n) :
    Except.Matches (· = ·) (fun r r' => r.2 = r'.2 ∧ s.ChangesAlike t r.1 u r'.1)
      (s.exec t) (s.exec u) := by
  cases s with
  | declaration type name value =>
      have hname := h name.lexeme (by simp [reads])
      exact (execDeclaration_matches hname).map fun _ _ h => ⟨rfl, h⟩
  | assignment name value => exact (execAssignment_matches h).map fun _ _ h => ⟨rfl, h⟩
  | print keyword line body value =>
      cases value with
      | none => exact .ok ⟨rfl, .inl ⟨rfl, rfl⟩⟩
      | some e =>
          have heval : e.eval u = e.eval t := by
            refine Expr.eval_congr fun x hx => ?_
            rw [Table.find?, Table.find?, h x.lexeme (mem_names hx)]
          have hprint : execPrint u keyword e = execPrint t keyword e := by
            rw [execPrint, execPrint, heval]
          rw [exec, exec, hprint]
          refine (Except.Matches.refl (execPrint t keyword e)).map ?_
          rintro out _ rfl
          exact ⟨rfl, .inl ⟨rfl, rfl⟩⟩

/-- What a statement says depends on what it reads. -/
theorem said_congr (h : ∀ n ∈ s.reads, u.symbol? n = t.symbol? n) : s.said u = s.said t := by
  have hmatches := exec_matches h
  unfold said
  cases ht : s.exec t with
  | error d =>
      rw [ht] at hmatches
      obtain ⟨_, hu, rfl⟩ := hmatches.of_error
      rw [hu]
  | ok r =>
      rw [ht] at hmatches
      obtain ⟨r', hu, hout, -⟩ := hmatches.of_ok
      rw [hu]
      exact congrArg Except.ok hout.symm

/-- So does what it does to the table. -/
theorem after_changesAlike (h : ∀ n ∈ s.reads, u.symbol? n = t.symbol? n) :
    s.ChangesAlike t (s.after t) u (s.after u) := by
  have hmatches := exec_matches h
  unfold after
  cases ht : s.exec t with
  | error d =>
      rw [ht] at hmatches
      obtain ⟨_, hu, -⟩ := hmatches.of_error
      rw [hu]
      exact .inl ⟨rfl, rfl⟩
  | ok r =>
      rw [ht] at hmatches
      obtain ⟨r', hu, -, hchange⟩ := hmatches.of_ok
      rw [hu]
      exact hchange

/-- A statement leaves all names alone but its target. -/
theorem symbol?_after {n : Bytes} (hn : s.target? ≠ some n) :
    (s.after t).symbol? n = t.symbol? n := by
  rcases after_changesAlike (s := s) (t := t) fun n _ => rfl with ⟨hkept, -⟩ | ⟨c, hc, hcall, -⟩
  · rw [hkept]
  · exact Table.symbol?_of_call hcall fun heq => hn (heq ▸ hc)

/-- A statement that leaves the table as it is introduces nothing. -/
theorem not_introduces_of_after_eq (h : s.after t = t) : ¬ s.Introduces t := by
  rintro ⟨n, hnone, hfound⟩
  exact hfound (h.symm ▸ hnone)

/-- A call introduces its name, unless it is there. -/
theorem introduces_iff_of_call {c : Table.Call} (h : t.call c = .ok (s.after t)) :
    s.Introduces t ↔ t.symbol? c.name = none := by
  constructor
  · rintro ⟨n, hnone, hfound⟩
    by_cases hn : n = c.name
    · exact hn ▸ hnone
    · exact absurd ((Table.symbol?_of_call h hn).trans hnone) hfound
  · intro hnone
    refine ⟨c.name, hnone, ?_⟩
    intro hlost
    have hfind := (Table.rebinds_of_call h).target
    rw [Table.find?, hlost] at hfind
    cases hfind

/-! ## Either order -/

/-- **Independent statements commute.**  Let neither of two statements write a name that the other
one writes or reads.  Whichever of them is executed first:

* each of them writes the same lines, or there is the same complaint about it;
* in the end the same is found under every name, with its value and the line of its declaration;
* the tables are the same, with their order, just if not both statements introduce a name. -/
theorem commute_of_independent (h : s₁.Independent s₂) (t : Table) :
    let t₁ := s₁.after t
    let t₂ := s₂.after t
    s₁.said t₂ = s₁.said t ∧ s₂.said t₁ = s₂.said t ∧
    (∀ n, (s₂.after t₁).symbol? n = (s₁.after t₂).symbol? n) ∧
    (s₂.after t₁ = s₁.after t₂ ↔ ¬ (s₁.Introduces t ∧ s₂.Introduces t)) := by
  intro t₁ t₂
  have hreads₁ : ∀ n ∈ s₁.reads, t₂.symbol? n = t.symbol? n := fun n hn =>
    symbol?_after fun hs => (h.2 n hs).2 hn
  have hreads₂ : ∀ n ∈ s₂.reads, t₁.symbol? n = t.symbol? n := fun n hn =>
    symbol?_after fun hs => (h.1 n hs).2 hn
  refine ⟨said_congr hreads₁, said_congr hreads₂, ?_⟩
  have hkept : s₂.after t₁ = s₁.after t₂ → ¬ s₁.Introduces t ∨ ¬ s₂.Introduces t →
      (∀ n, (s₂.after t₁).symbol? n = (s₁.after t₂).symbol? n) ∧
        (s₂.after t₁ = s₁.after t₂ ↔ ¬ (s₁.Introduces t ∧ s₂.Introduces t)) := fun heq hnot =>
    ⟨fun n => by rw [heq], iff_of_true heq (not_and_or.2 hnot)⟩
  rcases after_changesAlike hreads₁ with ⟨hkept₁, hkept₁'⟩ | ⟨c₁, hc₁, h₁, h₂₁⟩
  · -- the first statement changes nothing, so only the second one counts
    refine hkept ?_ (.inl (not_introduces_of_after_eq hkept₁))
    rw [hkept₁', show t₁ = t from hkept₁]
  · rcases after_changesAlike hreads₂ with ⟨hkept₂, hkept₂'⟩ | ⟨c₂, hc₂, h₂, h₁₂⟩
    · refine hkept ?_ (.inr (not_introduces_of_after_eq hkept₂))
      rw [hkept₂', show t₂ = t from hkept₂]
    · have hne : c₁.name ≠ c₂.name := fun heq => (h.1 _ hc₁).1 (heq ▸ hc₂)
      rw [introduces_iff_of_call h₁, introduces_iff_of_call h₂]
      exact Table.call_comm hne h₁ h₁₂ h₂ h₂₁

/-- With an integer `x` of line 7: a declaration of `a` and one of `x` as a double, which is refused
with that line, can change places, and so can declarations of `a` and `b`, but these leave the two
names in the order in which they came. -/
theorem commute_of_independent_declarations :
    let t : Table := ⟨[⟨utf8 "x", .int 4, 7⟩], by decide⟩
    let declare (type name : Bytes) (line : Int) : Statement :=
      declaration ⟨.ident, type, line, 1⟩ ⟨.ident, name, line, 8⟩ none
    let a := declare (utf8 "int") (utf8 "a") 8
    let x := declare (utf8 "double") (utf8 "x") 9
    let b := declare (utf8 "int") (utf8 "b") 9
    (a.Independent x ∧ (∃ d, x.said t = .error d ∧ x.said (a.after t) = .error d) ∧
      x.after (a.after t) = a.after (x.after t)) ∧
    a.Independent b ∧
      (∀ n, (b.after (a.after t)).symbol? n = (a.after (b.after t)).symbol? n) ∧
      b.after (a.after t) ≠ a.after (b.after t) := by
  intro t declare a x b
  have hax : a.Independent x := by decide
  have hab : a.Independent b := by decide
  obtain ⟨-, hsaid, -, hsame⟩ := commute_of_independent hax t
  obtain ⟨-, -, hfound, hother⟩ := commute_of_independent hab t
  have hx : ¬ x.Introduces t := not_introduces_of_after_eq (by decide)
  have ha : a.Introduces t := ⟨utf8 "a", by decide, by decide⟩
  have hb : b.Introduces t := ⟨utf8 "b", by decide, by decide⟩
  refine ⟨⟨hax, ⟨_, rfl, hsaid⟩, hsame.2 fun hboth => hx hboth.2⟩, hab, hfound, ?_⟩
  exact fun heq => hother.1 heq ⟨ha, hb⟩

end Statement

end LineCalc
