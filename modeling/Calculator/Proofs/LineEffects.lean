import Calculator.Session

/-!
# What a line leaves behind

A line is carried out as a whole or not at all.  If it says an assignment whose
source yields an integer, then this one name is bound anew and no other; any
other line, whether it fails or only asks, leaves the environment it found.

Everything a line can do is one of these two, so all that is to be known of a
row of lines follows from here without looking at commands, queries and
expressions again.

* `execute_assignment` — a line that says an assignment does just that;
* `execute_of_not_assignment` — a line that says none changes nothing;
* `execute_cases` — the two things that a line can do;
* `line_is_all_or_nothing` — the same for results and for single names.
-/

namespace Calculator

/-- Of all names a single one is bound anew, to what a source yielded before. -/
structure Rebinds (before after : Environment) (name : Text) (source : Source) : Prop where
  /-- A literal is bound as it is. -/
  literal : ∀ n, source = .literal n → after.lookup name = some n
  /-- A copy is bound to what the copied name was bound to before. -/
  copy : ∀ other, source = .copy other →
    ∃ v, before.lookup other = some v ∧ after.lookup name = some v
  /-- Every other name is left as it was. -/
  frame : ∀ other, other ≠ name → after.lookup other = before.lookup other

namespace Session

/-- A source yields nothing exactly if it copies an unbound name. -/
theorem resolve?_eq_none_iff {env : Environment} {source : Source} :
    resolve? env source = none ↔ ∃ other, source = .copy other ∧ env.lookup other = none := by
  cases source with
  | literal n => simp [resolve?]
  | copy other => simp [resolve?]

theorem assign_of_resolve {env : Environment} {source : Source} {v : Int}
    (h : resolve? env source = some v) (name : Text) :
    assign env name source = (.ok (), env.assign name v) := by
  rw [assign, h]

theorem assign_of_unresolved {env : Environment} {source : Source}
    (h : resolve? env source = none) (name : Text) :
    assign env name source = (.error .invalidAssignment, env) := by
  rw [assign, h]

/-- Assigning what a source yields rebinds the name to it. -/
theorem rebinds_assign {env : Environment} {source : Source} {v : Int}
    (h : resolve? env source = some v) (name : Text) :
    Rebinds env (env.assign name v) name source where
  literal n hn := by
    have hv : n = v := by simpa [hn, resolve?] using h
    rw [hv, Environment.lookup_assign_self]
  copy other hother := by
    have hbound : env.lookup other = some v := by simpa [hother, resolve?] using h
    exact ⟨v, hbound, env.lookup_assign_self name v⟩
  frame other hne := env.lookup_assign_of_ne hne v

/-- A name can be bound anew only from a source that yields an integer. -/
theorem resolve?_of_rebinds {before after : Environment} {name : Text} {source : Source}
    (h : Rebinds before after name source) : ∃ v, resolve? before source = some v := by
  cases source with
  | literal n => exact ⟨n, rfl⟩
  | copy other =>
      obtain ⟨v, hbound, -⟩ := h.copy other rfl
      exact ⟨v, hbound⟩

/-! ## What a line does -/

/-- A line says an assignment or says none. -/
theorem parse_assignment_or_not (line : Text) :
    (∃ name source, Statement.parse line = .ok (.assignment name source)) ∨
      ∀ name source, Statement.parse line ≠ .ok (.assignment name source) := by
  by_cases h : ∃ name source, Statement.parse line = .ok (.assignment name source)
  · exact Or.inl h
  · exact Or.inr fun name source hparse => h ⟨name, source, hparse⟩

/-- A line that says an assignment assigns, and tells whether it did. -/
theorem execute_assignment {env : Environment} {line name : Text} {source : Source}
    (h : Statement.parse line = .ok (.assignment name source)) :
    execute env line = ((assign env name source).1.mapError .parse |>.map fun _ => .assigned,
      (assign env name source).2) := by
  rw [execute, h]
  rfl

theorem execute_of_resolve {env : Environment} {line name : Text} {source : Source} {v : Int}
    (h : Statement.parse line = .ok (.assignment name source))
    (hv : resolve? env source = some v) :
    execute env line = (.ok .assigned, env.assign name v) := by
  rw [execute_assignment h, assign_of_resolve hv]
  rfl

theorem execute_of_unresolved {env : Environment} {line name : Text} {source : Source}
    (h : Statement.parse line = .ok (.assignment name source))
    (hnone : resolve? env source = none) :
    execute env line = (.error (.parse .invalidAssignment), env) := by
  rw [execute_assignment h, assign_of_unresolved hnone]
  rfl

/-- No statement but an assignment has the result of one. -/
theorem perform_ne_assigned {statement : Statement}
    (h : ∀ name source, statement ≠ .assignment name source) (env : Environment) :
    (perform env statement).1 ≠ .ok .assigned := by
  intro hassigned
  cases statement with
  | assignment name source => exact absurd rfl (h name source)
  | blank => cases hassigned
  | command command => cases command <;> cases hassigned
  | query name =>
      rw [perform] at hassigned
      cases hvalue : env.query name <;> rw [hvalue] at hassigned <;> cases hassigned
  | expression text =>
      rw [perform] at hassigned
      cases hvalue : evaluate env text <;> rw [hvalue] at hassigned <;> cases hassigned

/-- A line that says no assignment changes nothing, and has another result. -/
theorem execute_of_not_assignment {line : Text}
    (h : ∀ name source, Statement.parse line ≠ .ok (.assignment name source))
    (env : Environment) :
    (execute env line).1 ≠ .ok .assigned ∧ (execute env line).2 = env := by
  rw [execute]
  cases hparse : Statement.parse line with
  | error cause => simp
  | ok statement =>
      have hstatement : ∀ name source, statement ≠ .assignment name source :=
        fun name source heq => h name source (by rw [hparse, heq])
      exact ⟨perform_ne_assigned hstatement env, perform_of_not_assignment hstatement env⟩

/-- **What a line can do.**  It binds the one name of an assignment to what the source of the
assignment yields, or it changes nothing. -/
theorem execute_cases (env : Environment) (line : Text) :
    (∃ name source v, Statement.parse line = .ok (.assignment name source) ∧
        resolve? env source = some v ∧ execute env line = (.ok .assigned, env.assign name v)) ∨
      ((execute env line).1 ≠ .ok .assigned ∧ (execute env line).2 = env) := by
  rcases parse_assignment_or_not line with ⟨name, source, hparse⟩ | hnone
  · cases hv : resolve? env source with
    | some v => exact Or.inl ⟨name, source, v, hparse, hv, execute_of_resolve hparse hv⟩
    | none =>
        rw [execute_of_unresolved hparse hv]
        exact Or.inr ⟨by simp, rfl⟩
  · exact Or.inr (execute_of_not_assignment hnone env)

/-- A line that says an assignment succeeds exactly if the source yields an integer. -/
theorem execute_assigned_iff {env : Environment} {line name : Text} {source : Source}
    (h : Statement.parse line = .ok (.assignment name source)) :
    (execute env line).1 = .ok .assigned ↔ ∃ v, resolve? env source = some v := by
  cases hv : resolve? env source with
  | some v => simp [execute_of_resolve h hv]
  | none => simp [execute_of_unresolved h hv]

/-- **A line is carried out as a whole or not at all.**  Unless it is told to have assigned, the
environment is the one before.  It is told so exactly if the line says an assignment, and then
its name alone is bound anew, to the literal or to what the copied name was bound to before.
Assigning without a line keeps the same law: it is refused exactly if an unbound name is to be
copied, and then nothing is changed. -/
theorem line_is_all_or_nothing (env : Environment) (line : Text) :
    ((execute env line).1 ≠ .ok .assigned → (execute env line).2 = env) ∧
      ((execute env line).1 = .ok .assigned ↔
        ∃ name source, Statement.parse line = .ok (.assignment name source) ∧
          Rebinds env (execute env line).2 name source) ∧
      ∀ name source,
        ((∃ cause, (assign env name source).1 = .error cause) ↔
          ∃ other, source = .copy other ∧ env.lookup other = none) ∧
        (∀ cause, (assign env name source).1 = .error cause →
          cause = .invalidAssignment ∧ (assign env name source).2 = env) ∧
        ((assign env name source).1 = .ok () →
          Rebinds env (assign env name source).2 name source) := by
  refine ⟨?_, ?_, ?_⟩
  · intro hresult
    rcases execute_cases env line with ⟨name, source, v, -, -, heq⟩ | ⟨-, hsame⟩
    · exact absurd (by rw [heq]) hresult
    · exact hsame
  · constructor
    · intro hresult
      rcases execute_cases env line with ⟨name, source, v, hparse, hv, heq⟩ | ⟨hne, -⟩
      · rw [heq]
        exact ⟨name, source, hparse, rebinds_assign hv name⟩
      · exact absurd hresult hne
    · intro hassignment
      obtain ⟨name, source, hparse, hrebinds⟩ := hassignment
      rw [execute_assigned_iff hparse]
      exact resolve?_of_rebinds hrebinds
  · intro name source
    rw [← resolve?_eq_none_iff]
    cases hv : resolve? env source with
    | some v =>
        rw [assign_of_resolve hv]
        exact ⟨by simp, by simp, fun _ => rebinds_assign hv name⟩
    | none =>
        rw [assign_of_unresolved hv]
        exact ⟨by simp, by simp [eq_comm], by simp⟩

/-- A copy of a bound name, a quotient that does not exist, and a copy of an unbound name. -/
theorem line_is_all_or_nothing_copy :
    (∃ name source, Statement.parse "b = a".toList = .ok (.assignment name source) ∧
        Rebinds (Environment.empty.assign ['a'] 7)
          (execute (Environment.empty.assign ['a'] 7) "b = a".toList).2 name source) ∧
      (execute (Environment.empty.assign ['a'] 7) "a / 0".toList).1 =
        .error (.eval .divisionByZero) ∧
      (execute (Environment.empty.assign ['a'] 7) "a / 0".toList).2 =
        Environment.empty.assign ['a'] 7 ∧
      (assign (Environment.empty.assign ['a'] 7) ['b'] (.copy ['z'])).1 =
        .error .invalidAssignment ∧
      (assign (Environment.empty.assign ['a'] 7) ['b'] (.copy ['z'])).2 =
        Environment.empty.assign ['a'] 7 := by
  have hcopied : (execute (Environment.empty.assign ['a'] 7) "b = a".toList).1 =
      .ok .assigned := by rfl
  have hzero : (execute (Environment.empty.assign ['a'] 7) "a / 0".toList).1 =
      .error (.eval .divisionByZero) := by rfl
  have hrefused : (assign (Environment.empty.assign ['a'] 7) ['b'] (.copy ['z'])).1 =
      .error .invalidAssignment := by rfl
  have hfailed : (execute (Environment.empty.assign ['a'] 7) "a / 0".toList).1 ≠
      .ok .assigned := by
    rw [hzero]
    simp
  exact ⟨(line_is_all_or_nothing _ _).2.1.1 hcopied, hzero,
    (line_is_all_or_nothing _ _).1 hfailed, hrefused,
    (((line_is_all_or_nothing _ []).2.2 _ _).2.1 _ hrefused).2⟩

end Session

end Calculator
