import Calculator.Error

/-!
# Variables

An environment binds names to integers.  It is a list of bindings in which no
name comes twice, so its length is the number of variables.  The order of the
list carries no meaning: an environment is used through `lookup` and `size`.

* `lookup_assign_self`, `lookup_assign_of_ne` — an assignment is seen under its
  own name and nowhere else;
* `size_assign` — it adds a variable exactly when the name was unbound;
* `mem_names_iff` — the names are those under which something is found;
* `query_eq_ok_iff`, `query_eq_error_iff` — asking for a name fails exactly when
  it is unbound.
-/

namespace Calculator

/-- A finite set of names, each with an integer. -/
structure Environment where
  bindings : List (Text × Int)
  /-- No name is bound twice. -/
  distinct : (bindings.map Prod.fst).Nodup

namespace Environment

/-- No variable at all. -/
def empty : Environment := ⟨[], List.nodup_nil⟩

/-- The bound names. -/
def names (env : Environment) : List Text :=
  env.bindings.map Prod.fst

/-- The integer bound to a name, if one is. -/
def lookup (env : Environment) (name : Text) : Option Int :=
  env.bindings.lookup name

/-- The integer bound to a name; a name without one is an error. -/
def query (env : Environment) (name : Text) : Except EvalError Int :=
  match env.lookup name with
  | some value => .ok value
  | none => .error (.unknownVariable name)

/-- The number of variables. -/
def size (env : Environment) : Nat :=
  env.bindings.length

/-- Whether there is no variable. -/
def isEmpty (env : Environment) : Bool :=
  env.bindings.isEmpty

/-- Binds a name to an integer, in the place of what it was bound to before. -/
def assign (env : Environment) (name : Text) (value : Int) : Environment where
  bindings := (name, value) :: env.bindings.filter fun binding => binding.1 != name
  distinct := by
    rw [List.map_cons, List.nodup_cons]
    refine ⟨by simp, ?_⟩
    exact env.distinct.sublist (List.filter_sublist.map _)

/-- The environment after a list of assignments, from left to right. -/
def ofList (assignments : List (Text × Int)) : Environment :=
  assignments.foldl (fun env binding => env.assign binding.1 binding.2) empty

@[simp] theorem lookup_empty (name : Text) : empty.lookup name = none := rfl

@[simp] theorem size_empty : empty.size = 0 := rfl

@[simp] theorem lookup_assign_self (env : Environment) (name : Text) (value : Int) :
    (env.assign name value).lookup name = some value := by
  simp [lookup, assign]

/-- Other bindings are found whether or not the bindings of a name were removed. -/
theorem lookup_filter_of_ne {other name : Text} (h : other ≠ name) (bindings : List (Text × Int)) :
    (bindings.filter fun binding => binding.1 != name).lookup other = bindings.lookup other := by
  induction bindings with
  | nil => rfl
  | cons binding bindings ih =>
    obtain ⟨key, value⟩ := binding
    by_cases hkey : key = name
    · have differs : (other == key) = false := by simpa [hkey] using h
      rw [List.lookup_cons, differs]
      simpa [hkey] using ih
    · simp [hkey, List.lookup_cons, ih]

theorem lookup_assign_of_ne (env : Environment) {other name : Text} (h : other ≠ name)
    (value : Int) : (env.assign name value).lookup other = env.lookup other := by
  have : (other == name) = false := by simpa using h
  rw [lookup, assign, List.lookup_cons, this]
  exact lookup_filter_of_ne h env.bindings

/-- What is found after an assignment. -/
theorem lookup_assign (env : Environment) (name other : Text) (value : Int) :
    (env.assign name value).lookup other =
      if other = name then some value else env.lookup other := by
  split
  · next h => rw [h, lookup_assign_self]
  · next h => exact lookup_assign_of_ne env h value

/-- A bound name has its value for an answer. -/
theorem query_eq_ok_iff {env : Environment} {name : Text} {value : Int} :
    env.query name = .ok value ↔ env.lookup name = some value := by
  cases h : env.lookup name <;> simp [query, h]

/-- An unbound name is an error that tells the name. -/
theorem query_eq_error_iff {env : Environment} {name : Text} {e : EvalError} :
    env.query name = .error e ↔ env.lookup name = none ∧ e = .unknownVariable name := by
  cases h : env.lookup name <;> simp [query, h, eq_comm]

/-- The names are those under which something is found. -/
theorem mem_names_iff {env : Environment} {name : Text} :
    name ∈ env.names ↔ (env.lookup name).isSome := by
  rw [lookup, List.lookup_isSome_iff, names, List.mem_map]
  exact exists_congr fun binding => and_congr_right fun _ => by
    rw [beq_iff_eq]
    exact eq_comm

/-- The names after an assignment: the new one, then the others. -/
theorem names_assign (env : Environment) (name : Text) (value : Int) :
    (env.assign name value).names = name :: env.names.erase name := by
  rw [names, names, List.Nodup.erase_eq_filter env.distinct, assign, List.map_cons,
    List.filter_map]
  rfl

/-- There are as many variables as names. -/
theorem length_names (env : Environment) : env.names.length = env.size := by
  simp [names, size]

/-- An assignment adds a variable exactly when its name was unbound. -/
theorem size_assign (env : Environment) (name : Text) (value : Int) :
    (env.assign name value).size =
      if (env.lookup name).isSome then env.size else env.size + 1 := by
  rw [← length_names, names_assign, List.length_cons, List.length_erase, ← length_names]
  by_cases h : name ∈ env.names
  · have := List.length_pos_of_mem h
    rw [if_pos h, if_pos (mem_names_iff.1 h)]
    omega
  · rw [if_neg h, if_neg fun found => h (mem_names_iff.2 found)]

end Environment

end Calculator
