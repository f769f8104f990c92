import LineCalc.Value
/-!
# The table of variables

The variables of a run in the order of their first declarations.  Declaring a name again with the
same kind overwrites its value in place; a name never changes its kind.
-/
namespace LineCalc

/-- A variable: its name, its value and the line of its first declaration. -/
structure Symbol where
  name : Bytes
  value : Value
  line : Int
  deriving DecidableEq

/-- The variables in the order of their declarations, each name once. -/
structure Table where
  symbols : List Symbol
  nodup : (symbols.map Symbol.name).Nodup
  deriving DecidableEq

/-- Why the table refuses a value. -/
inductive TableError where
  | undeclared (name : Bytes)
  | redeclared (name : Bytes) (kind : Kind) (line : Int) (newKind : Kind)
  | misassigned (name : Bytes) (kind newKind : Kind)
  deriving DecidableEq

namespace TableError

/-- What is wrong, without the family of the error. -/
def detail : TableError → Bytes
  | undeclared name => name
  | redeclared name k line k' =>
    name ++ utf8 " is already declared as " ++ k.text ++ utf8 " (line " ++ Bytes.ofInt line ++
      utf8 "), cannot redeclare as " ++ k'.text
  | misassigned name k k' =>
    utf8 "cannot assign " ++ k'.text ++ utf8 " value to " ++ k.text ++ utf8 " variable " ++ name

/-- The error in words. -/
def message : TableError → Bytes
  | undeclared name => utf8 "variable not declared: " ++ detail (undeclared name)
  | e => utf8 "kind mismatch: " ++ detail e

end TableError

namespace Table

/-- The table without variables. -/
def empty : Table := ⟨[], .nil⟩

/-- The number of variables. -/
def size (t : Table) : Nat := t.symbols.length

/-- The variable of the given name. -/
def symbol? (t : Table) (name : Bytes) : Option Symbol := t.symbols.find? (·.name == name)

/-- The value of the variable of the given name. -/
def find? (t : Table) (name : Bytes) : Option Value := (t.symbol? name).map (·.value)

/-- The variables of one kind. -/
def byKind (t : Table) (k : Kind) : List Symbol := t.symbols.filter (·.value.kind == k)

/-! ## Changing the table -/

/-- A variable with a new value if it has the given name. -/
def Symbol.assign (name : Bytes) (v : Value) (s : Symbol) : Symbol :=
  if s.name = name then { s with value := v } else s

/-- Assigning keeps names. -/
@[simp]
theorem Symbol.name_assign (name : Bytes) (v : Value) (s : Symbol) :
    (Symbol.assign name v s).name = s.name := by
  unfold Symbol.assign
  split <;> rfl

/-- The table in which the variable of the given name, if there is one, has a new value. -/
def set (t : Table) (name : Bytes) (v : Value) : Table :=
  ⟨t.symbols.map (Symbol.assign name v), by
    rw [List.map_map, show Symbol.name ∘ Symbol.assign name v = Symbol.name from
      funext (Symbol.name_assign name v)]
    exact t.nodup⟩

/-- The table with one more variable at its end. -/
def push (t : Table) (s : Symbol) (h : t.symbol? s.name = none) : Table :=
  ⟨t.symbols ++ [s], by
    rw [List.map_append, List.nodup_append]
    refine ⟨t.nodup, by simp, ?_⟩
    intro a ha b hb hab
    simp only [List.map_cons, List.map_nil, List.mem_singleton] at hb
    obtain ⟨u, hu, rfl⟩ := List.mem_map.1 ha
    have := List.find?_eq_none.1 h u hu
    simp_all⟩

/-- Declares a variable.  A name that is there already takes the value if the kinds agree. -/
def declare (t : Table) (name : Bytes) (v : Value) (line : Int) : Except TableError Table :=
  match h : t.symbol? name with
  | some s =>
    if s.value.kind = v.kind then .ok (t.set name v)
    else .error (.redeclared name s.value.kind s.line v.kind)
  | none => .ok (t.push ⟨name, v, line⟩ h)

/-- Gives a variable a new value of its kind. -/
def update (t : Table) (name : Bytes) (v : Value) : Except TableError Table :=
  match t.symbol? name with
  | some s =>
    if s.value.kind = v.kind then .ok (t.set name v)
    else .error (.misassigned name s.value.kind v.kind)
  | none => .error (.undeclared name)

/-! ## The listing -/

/-- Variables as `[name = value]`, with commas between them. -/
def listing (ss : List Symbol) : Bytes :=
  (utf8 ", ").intercalate
    (ss.map fun s => utf8 "[" ++ s.name ++ utf8 " = " ++ s.value.toText ++ utf8 "]")

/-- The listing at the end of a run: the integers, then the doubles. -/
def dump (t : Table) : Bytes :=
  utf8 "Integers stored:\n" ++ listing (t.byKind .int) ++ utf8 "\nDoubles stored:\n" ++
    listing (t.byKind .double) ++ utf8 "\n"

end Table

end LineCalc
