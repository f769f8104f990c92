import LineCalc.Proofs.Store
import Mathlib.Data.List.Basic
/-!
# Tables and their histories

A table that has taken a row of calls lists what the successful ones among them say: the names that
were declared, in the order of their first declarations, each with the value that it was given last
and the line of its first declaration.

* `Table.call_cases` : the four things that a call can do;
* `Table.Refines` : the table lists what the successful calls say;
* `Table.Refines.record` : one call keeps the two in step;
* `Store.replay`, `Store.exists_table_replay` : a store that takes the same calls has this table;
* `Table.replay_refines_history` : what the table and the store hold after any calls, starting from
  empty ones.
-/
namespace LineCalc

/-! ## Calls -/

/-- What can be asked of a table: to declare a name, or to give it a new value. -/
inductive Table.Call where
  | declare (name : Bytes) (value : Value) (line : Int)
  | update (name : Bytes) (value : Value)
  deriving DecidableEq

namespace Table.Call

/-- The name that the call is about. -/
def name : Call → Bytes
  | declare n _ _ => n
  | update n _ => n

/-- The value that the call gives to its name. -/
def value : Call → Value
  | declare _ v _ => v
  | update _ v => v

/-- The variable as it is declared, if the call declares one. -/
def declaration? : Call → Option Symbol
  | declare n v line => some ⟨n, v, line⟩
  | update _ _ => none

/-- The declarations among the calls. -/
def declarations (calls : List Call) : List Symbol := calls.filterMap declaration?

/-- The names that the calls declare, each once, in the order of their first declarations. -/
def declaredNames (calls : List Call) : List Bytes :=
  ((declarations calls).map Symbol.name).eraseDups

/-- The first declaration of a name. -/
def firstDeclaration? (calls : List Call) (n : Bytes) : Option Symbol :=
  (declarations calls).find? (·.name == n)

/-- The value that a name was given last. -/
def lastValue? (calls : List Call) (n : Bytes) : Option Value :=
  (calls.filter (·.name == n)).getLast?.map value

end Table.Call

namespace Table

/-- What the table makes of a call. -/
def call (t : Table) : Call → Except TableError Table
  | .declare n v line => t.declare n v line
  | .update n v => t.update n v

/-- A table takes a call, and the call joins those that succeeded; a call that fails leaves both as
they are. -/
def record (s : Table × List Call) (c : Call) : Table × List Call :=
  match s.1.call c with
  | .ok t => (t, s.2 ++ [c])
  | .error _ => s

/-- The table after a row of calls, and those of the calls that succeeded. -/
def replay (calls : List Call) : Table × List Call := calls.foldl record (.empty, [])

/-! ## What a call does -/

/-- **The four ways of a call.**  A name that is there takes a value of its kind and refuses any
other; a name that is not there can be declared, but not be given a value. -/
theorem call_cases (t : Table) (c : Call) :
    (∃ y, t.symbol? c.name = some y ∧ y.value.kind = c.value.kind ∧
      t.call c = .ok (t.set c.name c.value)) ∨
    (∃ (y : Symbol) (h : t.symbol? y.name = none), c.declaration? = some y ∧
      t.call c = .ok (t.push y h)) ∨
    (∃ y e, t.symbol? c.name = some y ∧ y.value.kind ≠ c.value.kind ∧ t.call c = .error e) ∨
    (t.symbol? c.name = none ∧ c.declaration? = none ∧
      t.call c = .error (.undeclared c.name)) := by
  cases c with
  | declare n v line =>
      simp only [call, Call.name, Call.value, Call.declaration?, declare]
      split
      · next y hy =>
          by_cases hkind : y.value.kind = v.kind
          · exact .inl ⟨y, hy, hkind, if_pos hkind⟩
          · exact .inr (.inr (.inl ⟨y, _, hy, hkind, if_neg hkind⟩))
      · next hnone => exact .inr (.inl ⟨⟨n, v, line⟩, hnone, rfl, rfl⟩)
  | update n v =>
      simp only [call, Call.name, Call.value, Call.declaration?, update]
      cases hy : t.symbol? n with
      | none => exact .inr (.inr (.inr ⟨rfl, trivial, rfl⟩))
      | some y =>
          by_cases hkind : y.value.kind = v.kind
          · exact .inl ⟨y, rfl, hkind, if_pos hkind⟩
          · exact .inr (.inr (.inl ⟨y, _, rfl, hkind, if_neg hkind⟩))

/-- The two ways of a call that is taken. -/
theorem call_ok_cases {t t' : Table} {c : Call} (h : t.call c = .ok t') :
    (∃ y, t.symbol? c.name = some y ∧ y.value.kind = c.value.kind ∧ t' = t.set c.name c.value) ∨
    (∃ (y : Symbol) (hy : t.symbol? y.name = none),
      c.declaration? = some y ∧ t' = t.push y hy) := by
  rcases call_cases t c with ⟨y, hy, hkind, hcall⟩ | ⟨y, hnone, hc, hcall⟩ | ⟨y, e, -, -, hcall⟩ |
    ⟨-, -, hcall⟩
  · exact .inl ⟨y, hy, hkind, Except.ok.inj (h.symm.trans hcall)⟩
  · exact .inr ⟨y, hnone, hc, Except.ok.inj (h.symm.trans hcall)⟩
  · exact absurd (h.symm.trans hcall) (by simp)
  · exact absurd (h.symm.trans hcall) (by simp)

/-- A declaration is refused just if its name is there with the other kind. -/
theorem declare_eq_error_iff {t : Table} {n : Bytes} {v : Value} {line : Int} {e : TableError} :
    t.declare n v line = .error e ↔ ∃ y, t.symbol? n = some y ∧ y.value.kind ≠ v.kind ∧
      e = .redeclared n y.value.kind y.line v.kind := by
  unfold declare
  split
  · next y hy =>
      by_cases hkind : y.value.kind = v.kind
      · simp [hy, hkind]
      · simp only [hy, Option.some.injEq, exists_eq_left', hkind, if_false, Except.error.injEq,
          ne_eq, not_false_eq_true, true_and]
        exact eq_comm
  · next hnone => simp [hnone]

/-- A new value is refused just if its name is not there, or is there with the other kind. -/
theorem update_eq_error_iff {t : Table} {n : Bytes} {v : Value} {e : TableError} :
    t.update n v = .error e ↔ (t.symbol? n = none ∧ e = .undeclared n) ∨
      ∃ y, t.symbol? n = some y ∧ y.value.kind ≠ v.kind ∧
        e = .misassigned n y.value.kind v.kind := by
  unfold update
  cases hy : t.symbol? n with
  | none => simp [eq_comm]
  | some y =>
      by_cases hkind : y.value.kind = v.kind
      · simp [hkind]
      · simp only [hkind, if_false, Except.error.injEq, reduceCtorEq, false_and, false_or,
          Option.some.injEq, exists_eq_left', ne_eq, not_false_eq_true, true_and]
        exact eq_comm

end Table

/-! ## One more call -/

namespace Table.Call

/-- A declaration is about the name that it declares. -/
theorem name_of_declaration? {c : Call} {y : Symbol} (h : c.declaration? = some y) :
    y.name = c.name ∧ y.value = c.value := by
  cases c with
  | declare n v line =>
      cases h
      exact ⟨rfl, rfl⟩
  | update n v => cases h

/-- The declarations among one call more. -/
theorem declarations_concat (done : List Call) (c : Call) :
    declarations (done ++ [c]) = declarations done ++ c.declaration?.toList := by
  rw [declarations, List.filterMap_append]
  cases hc : c.declaration? with
  | none => simp [declarations, hc]
  | some y => simp [declarations, hc]

/-- A name that comes last is listed unless it was there before. -/
theorem eraseDups_concat (names : List Bytes) (n : Bytes) :
    (names ++ [n]).eraseDups = if n ∈ names then names.eraseDups else names.eraseDups ++ [n] := by
  rw [List.eraseDups_append, List.removeAll]
  by_cases h : n ∈ names
  · rw [if_pos h, List.filter_cons_of_neg (by simpa using h)]
    simp
  · rw [if_neg h, List.filter_cons_of_pos (by simpa using h)]
    rfl

/-- A name that is declared already is listed once. -/
theorem declaredNames_concat_of_mem {done : List Call} {c : Call}
    (h : c.name ∈ declaredNames done) : declaredNames (done ++ [c]) = declaredNames done := by
  rw [declaredNames, declarations_concat]
  cases hc : c.declaration? with
  | none => simp [declaredNames]
  | some y =>
      rw [declaredNames, List.mem_eraseDups, ← (name_of_declaration? hc).1] at h
      rw [List.map_append]
      exact (eraseDups_concat _ y.name).trans (if_pos h)

/-- A name that is declared for the first time comes last. -/
theorem declaredNames_concat_of_not_mem {done : List Call} {c : Call} {y : Symbol}
    (hc : c.declaration? = some y) (h : y.name ∉ declaredNames done) :
    declaredNames (done ++ [c]) = declaredNames done ++ [y.name] := by
  rw [declaredNames, List.mem_eraseDups] at h
  rw [declaredNames, declarations_concat, hc, List.map_append]
  exact (eraseDups_concat _ y.name).trans (if_neg h)

/-- The last value of the name of the last call is its value. -/
theorem lastValue?_concat (done : List Call) (c : Call) (n : Bytes) :
    lastValue? (done ++ [c]) n = if n = c.name then some c.value else lastValue? done n := by
  rw [lastValue?, List.filter_append]
  split
  · next h => simp [h]
  · next h => simp [Ne.symm h, lastValue?]

/-- One call more does not change the first declaration of a name, if there is one. -/
theorem firstDeclaration?_concat (done : List Call) (c : Call) (n : Bytes) :
    firstDeclaration? (done ++ [c]) n =
      (firstDeclaration? done n).or (c.declaration?.toList.find? (·.name == n)) := by
  rw [firstDeclaration?, declarations_concat, List.find?_append]
  rfl

end Table.Call

namespace Table

/-! ## The table and the successful calls -/

/-- The table lists what the successful calls say: the names that they declare, each once, in the
order of their first declarations, with their last values and the lines of these declarations. -/
structure Refines (t : Table) (done : List Call) : Prop where
  names : t.symbols.map Symbol.name = Call.declaredNames done
  value : ∀ y ∈ t.symbols, Call.lastValue? done y.name = some y.value
  line : ∀ y ∈ t.symbols, (Call.firstDeclaration? done y.name).map Symbol.line = some y.line

variable {t : Table} {done : List Call} {c : Call}

/-- A name that is there takes a value. -/
theorem Refines.set (h : Refines t done) (hc : t.symbol? c.name ≠ none) :
    Refines (t.set c.name c.value) (done ++ [c]) := by
  have hmem : c.name ∈ Call.declaredNames done := by
    rw [← h.names]
    exact not_not.1 (mt symbol?_eq_none_iff.2 hc)
  have hnames : (t.set c.name c.value).symbols.map Symbol.name = t.symbols.map Symbol.name := by
    rw [Table.set, List.map_map]
    exact List.map_congr_left fun y _ => Symbol.name_assign c.name c.value y
  refine ⟨?_, ?_, ?_⟩
  · rw [hnames, h.names, Call.declaredNames_concat_of_mem hmem]
  · intro y hy
    obtain ⟨z, hz, rfl⟩ := List.mem_map.1 hy
    rw [Symbol.name_assign, Call.lastValue?_concat]
    by_cases hname : z.name = c.name
    · simp [Symbol.assign, hname]
    · simp [Symbol.assign, hname, h.value z hz]
  · intro y hy
    obtain ⟨z, hz, rfl⟩ := List.mem_map.1 hy
    have hline : (Symbol.assign c.name c.value z).line = z.line := by
      unfold Symbol.assign
      split <;> rfl
    obtain ⟨x, hx, hxz⟩ := Option.map_eq_some_iff.1 (h.line z hz)
    rw [Symbol.name_assign, hline, Call.firstDeclaration?_concat, hx, Option.some_or,
      Option.map_some, hxz]

/-- A new name is declared. -/
theorem Refines.push (h : Refines t done) {y : Symbol} (hc : c.declaration? = some y)
    (hnone : t.symbol? y.name = none) : Refines (t.push y hnone) (done ++ [c]) := by
  obtain ⟨hname, hvalue⟩ := Call.name_of_declaration? hc
  have hmem : y.name ∉ Call.declaredNames done := by
    rw [← h.names]
    exact symbol?_eq_none_iff.1 hnone
  have hold : ∀ z ∈ t.symbols, z.name ≠ y.name := by
    intro z hz heq
    exact symbol?_eq_none_iff.1 hnone (heq ▸ List.mem_map_of_mem hz)
  have hfirst : Call.firstDeclaration? done y.name = none := by
    rw [Call.declaredNames, List.mem_eraseDups] at hmem
    rw [Call.firstDeclaration?, List.find?_eq_none]
    intro x hx heq
    exact hmem (eq_of_beq heq ▸ List.mem_map_of_mem hx)
  refine ⟨?_, ?_, ?_⟩
  · rw [Call.declaredNames_concat_of_not_mem hc hmem, ← h.names]
    simp [Table.push]
  · refine List.forall_mem_append.2 ⟨?_, List.forall_mem_singleton.2 ?_⟩
    · intro z hz
      rw [Call.lastValue?_concat, if_neg (hname ▸ hold z hz), h.value z hz]
    · rw [Call.lastValue?_concat, if_pos hname, hvalue]
  · refine List.forall_mem_append.2 ⟨?_, List.forall_mem_singleton.2 ?_⟩
    · intro z hz
      obtain ⟨x, hx, hxz⟩ := Option.map_eq_some_iff.1 (h.line z hz)
      rw [Call.firstDeclaration?_concat, hx, Option.some_or, Option.map_some, hxz]
    · rw [Call.firstDeclaration?_concat, hfirst, hc]
      simp

/-- **One call** keeps the table and the successful calls in step. -/
theorem Refines.record (h : Refines t done) (c : Call) :
    Refines (record (t, done) c).1 (record (t, done) c).2 := by
  unfold Table.record
  cases hcall : t.call c with
  | error e => exact h
  | ok t' =>
      show Refines t' (done ++ [c])
      rcases call_ok_cases hcall with ⟨y, hy, -, rfl⟩ | ⟨y, hnone, hc, rfl⟩
      · exact h.set (by simp [hy])
      · exact h.push hc hnone

/-- All calls do. -/
theorem Refines.foldl_record (calls : List Call) {s : Table × List Call} (h : Refines s.1 s.2) :
    Refines (calls.foldl Table.record s).1 (calls.foldl Table.record s).2 := by
  induction calls generalizing s with
  | nil => exact h
  | cons c calls ih => exact ih (h.record c)

/-- The successful calls of a history are in step with its table. -/
theorem replay_refines (calls : List Call) : Refines (replay calls).1 (replay calls).2 :=
  Refines.foldl_record calls ⟨rfl, by simp [empty], by simp [empty]⟩

/-! ## Kinds -/

/-- A call gives a name its kind only if the call declares it and the name has none yet. -/
theorem kind_record (s : Table × List Call) (c : Call) (n : Bytes) :
    ((record s c).1.find? n).map Value.kind = ((s.1.find? n).map Value.kind).or
      ((c.declaration?.toList.find? (·.name == n)).map (·.value.kind)) := by
  obtain ⟨t, done⟩ := s
  -- the declaration of a call is about its name, so it tells nothing of any other
  have hother : n ≠ c.name → c.declaration?.toList.find? (·.name == n) = none := by
    intro hn
    rw [List.find?_eq_none]
    intro y hy heq
    exact hn (eq_of_beq heq ▸ (Call.name_of_declaration? (Option.mem_toList.1 hy)).1)
  have hsome : ∀ y, t.symbol? c.name = some y → n = c.name → t.find? n = some y.value := by
    rintro y hy rfl
    rw [find?, hy]
    rfl
  unfold record
  rcases call_cases t c with ⟨y, hy, hkind, hcall⟩ | ⟨y, hnone, hc, hcall⟩ | ⟨y, e, hy, -, hcall⟩ |
    ⟨-, hc, hcall⟩
  · simp only [hcall]
    by_cases hn : n = c.name
    · rw [hsome y hy hn, find?, symbol?_set, if_pos hn, hy]
      simp [hkind]
    · rw [hother hn, find?, symbol?_set, if_neg hn, find?]
      simp
  · simp only [hcall, hc]
    by_cases hn : n = y.name
    · rw [find?, symbol?_push, if_pos hn, find?, hn, hnone]
      simp
    · rw [find?, symbol?_push, if_neg hn, find?]
      simp [Ne.symm hn]
  · simp only [hcall]
    by_cases hn : n = c.name
    · rw [hsome y hy hn]
      rfl
    · rw [hother hn]
      simp
  · simp only [hcall, hc]
    simp

/-- The kind of a name after some calls: the one that it had, or else that of its first
declaration. -/
theorem kind_foldl_record (calls : List Call) (s : Table × List Call) (n : Bytes) :
    ((calls.foldl record s).1.find? n).map Value.kind = ((s.1.find? n).map Value.kind).or
      ((Call.firstDeclaration? calls n).map (·.value.kind)) := by
  induction calls generalizing s with
  | nil => simp [Call.firstDeclaration?, Call.declarations]
  | cons c calls ih =>
      have hcons : Call.firstDeclaration? (c :: calls) n =
          (c.declaration?.toList.find? (·.name == n)).or (Call.firstDeclaration? calls n) := by
        rw [Call.firstDeclaration?, Call.firstDeclaration?, ← List.find?_append]
        cases hc : c.declaration? with
        | none => simp [Call.declarations, hc]
        | some y => simp [Call.declarations, hc]
      rw [List.foldl_cons, ih, kind_record, hcons, Option.map_or, Option.or_assoc]

end Table

/-! ## The store and the calls -/

namespace Store

/-- What a call does to the store. -/
def call : Table.Call → Change Store TableError Unit
  | .declare n v line => declare n v line
  | .update n v => update n v

/-- The store after a call, whatever becomes of it. -/
def after (σ : Store) (c : Table.Call) : Store := ((call c).on σ).2

/-- The store after a row of calls. -/
def replay (calls : List Table.Call) : Store := calls.foldl after .empty

/-- A call does to the store what it does to the table. -/
theorem mirrors_call {σ : Store} (h : σ.InStep) (c : Table.Call) :
    Mirrors σ ((h.table.call c).map (·, ())) ((call c).on σ) := by
  cases c with
  | declare n v line => exact mirrors_declare h n v line
  | update n v => exact mirrors_update h n v

/-- One call leaves a store with the table that it leaves. -/
theorem exists_table_call {σ : Store} (h : σ.InStep) {s : Table × List Table.Call}
    (hs : h.table = s.1) (c : Table.Call) :
    ∃ h' : (σ.after c).InStep, h'.table = (Table.record s c).1 := by
  obtain ⟨t, done⟩ := s
  obtain rfl : h.table = t := hs
  have hmirrors := mirrors_call h c
  unfold after Table.record
  cases hcall : h.table.call c with
  | error e =>
      rw [hcall] at hmirrors
      rw [hmirrors.of_error]
      exact ⟨h, rfl⟩
  | ok t' =>
      rw [hcall] at hmirrors
      obtain ⟨h', ht', -⟩ := hmirrors.of_ok
      exact ⟨h', ht'⟩

/-- **The map and the order stay in step**: after any calls they show the table of these calls. -/
theorem exists_table_replay (calls : List Table.Call) :
    ∃ h : (replay calls).InStep, h.table = (Table.replay calls).1 := by
  have hfold : ∀ (calls : List Table.Call) (σ : Store) (h : σ.InStep) (s : Table × List Table.Call),
      h.table = s.1 → ∃ h' : (calls.foldl after σ).InStep,
        h'.table = (calls.foldl Table.record s).1 := by
    intro calls
    induction calls with
    | nil => exact fun σ h s hs => ⟨h, hs⟩
    | cons c calls ih =>
        intro σ h s hs
        obtain ⟨h', hs'⟩ := exists_table_call h hs c
        exact ih _ h' _ hs'
  exact hfold calls .empty .empty (.empty, []) rfl

end Store

namespace Table

/-! ## Histories -/

/-- **The table refines its history.**  After any calls on the empty table:

* it lists the names that were declared successfully, each once, in the order of their first
  declarations, with the value of the last successful call and the line of the first declaration;
* its size is the number of these names, and it finds these names and no others, with the values
  that it lists;
* the kind of a name is that of the first declaration that was asked for it;
* a declaration fails just if its name is there with the other kind, a new value just if its name
  is not there or there with the other kind, and a call that fails changes nothing;
* a store that took the same calls shows the same variables, by its map as by its order, and the
  next call does to it what it does to the table, nothing if it fails. -/
theorem replay_refines_history (calls : List Call) :
    let t := (replay calls).1
    let done := (replay calls).2
    t.symbols.map Symbol.name = Call.declaredNames done ∧
    (∀ y ∈ t.symbols, Call.lastValue? done y.name = some y.value ∧
      (Call.firstDeclaration? done y.name).map Symbol.line = some y.line) ∧
    t.size = (Call.declaredNames done).length ∧
    (∀ n, (t.find? n).isSome ↔ n ∈ Call.declaredNames done) ∧
    (∀ n v, t.find? n = some v ↔ ∃ y ∈ t.symbols, y.name = n ∧ y.value = v) ∧
    (∀ n, (t.find? n).map Value.kind = (Call.firstDeclaration? calls n).map (·.value.kind)) ∧
    (∀ n v line e, t.declare n v line = .error e ↔ ∃ y, t.symbol? n = some y ∧
      y.value.kind ≠ v.kind ∧ e = .redeclared n y.value.kind y.line v.kind) ∧
    (∀ n v e, t.update n v = .error e ↔ (t.symbol? n = none ∧ e = .undeclared n) ∨
      ∃ y, t.symbol? n = some y ∧ y.value.kind ≠ v.kind ∧
        e = .misassigned n y.value.kind v.kind) ∧
    (∀ c e, t.call c = .error e → replay (calls ++ [c]) = (t, done)) ∧
    let σ := Store.replay calls
    σ.symbols = t.symbols ∧ σ.size = t.size ∧ σ.cell? = t.symbol? ∧ σ.find? = t.find? ∧
      ∀ c, (∀ e, t.call c = .error e → (Store.call c).on σ = (.error e, σ)) ∧
        ∀ t', t.call c = .ok t' → ((Store.call c).on σ).1 = .ok () ∧
          ((Store.call c).on σ).2.symbols = t'.symbols := by
  intro t done
  have h : Refines t done := replay_refines calls
  refine ⟨h.names, fun y hy => ⟨h.value y hy, h.line y hy⟩, ?_, ?_, ?_, ?_,
    fun n v line e => declare_eq_error_iff, fun n v e => update_eq_error_iff, ?_, ?_⟩
  · rw [← h.names, List.length_map]
    rfl
  · intro n
    rw [← h.names, find?, Option.isSome_map, ← not_iff_not, Option.not_isSome_iff_eq_none]
    exact symbol?_eq_none_iff
  · intro n v
    simp only [find?, Option.map_eq_some_iff, symbol?_eq_some_iff, and_assoc]
  · intro n
    exact kind_foldl_record calls (.empty, []) n
  · intro c e hcall
    rw [replay, List.foldl_append, List.foldl_cons, List.foldl_nil, ← replay, record]
    have hcall : (replay calls).1.call c = .error e := hcall
    rw [hcall]
  · intro σ
    obtain ⟨hσ, htable⟩ := Store.exists_table_replay calls
    have htable : hσ.table = t := htable
    rw [← htable]
    refine ⟨rfl, hσ.size_table.symm, (funext hσ.symbol?_table).symm, hσ.find?_table.symm, ?_⟩
    intro c
    have hmirrors := Store.mirrors_call hσ c
    constructor
    · intro e he
      rw [he] at hmirrors
      exact hmirrors.of_error
    · intro t' ht'
      rw [ht'] at hmirrors
      obtain ⟨h', rfl, hok⟩ := hmirrors.of_ok
      exact ⟨hok, rfl⟩

/-- The name `x` is declared twice, between them `y`: `x` comes first, with its second value and its
first line, and `y` refuses an integer. -/
theorem replay_refines_history_twice :
    let calls : List Call := [.declare (utf8 "x") (.int 1) 1, .declare (utf8 "y") (.double .zero) 2,
      .declare (utf8 "x") (.int 9) 3]
    let t := (replay calls).1
    t.symbols.map Symbol.name = [utf8 "x", utf8 "y"] ∧
    (⟨utf8 "x", .int 9, 1⟩ ∈ t.symbols ∧
      (Call.firstDeclaration? (replay calls).2 (utf8 "x")).map Symbol.line = some 1) ∧
    t.call (.update (utf8 "y") (.int 5)) = .error (.misassigned (utf8 "y") .double .int) ∧
    replay (calls ++ [.update (utf8 "y") (.int 5)]) = replay calls := by
  intro calls t
  obtain ⟨hnames, hlisted, -, -, -, -, -, -, hfailed, -⟩ := replay_refines_history calls
  have hx : (⟨utf8 "x", .int 9, 1⟩ : Symbol) ∈ t.symbols := by decide
  have hrefused : t.call (.update (utf8 "y") (.int 5)) =
      .error (.misassigned (utf8 "y") .double .int) := by
    decide
  refine ⟨?_, ⟨hx, (hlisted _ hx).2⟩, hrefused, hfailed _ _ hrefused⟩
  rw [hnames]
  decide

end Table

end LineCalc
