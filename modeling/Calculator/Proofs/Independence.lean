import Calculator.Proofs.LineEffects
import Calculator.Proofs.Operands
import Calculator.Statement.Footprint

/-!
# Lines that are nothing to one another

What a line finds of the names that it reads decides its result, and what it
binds its one name to.  It leaves any other name as it was.  So if the name that
one line writes is neither read nor written by another, and the other way round,
the two may change places: each has the result it has alone, and the variables
in the end are the same.

* `evaluate_congr_of_agreeOn`, `result_congr` — what a line reads decides its result;
* `lookup_execute_of_unwritten` — and what it does not write stays;
* `Line.Independent.step_comm` — two independent lines, in either order;
* `Line.run_of_independent`, `Line.lookup_run_perm` — rows of them, in any order;
* `Line.independent_lines_commute` — all of it for two lines.
-/

namespace Calculator

open Token ReversePolish

/-- Two environments agree on names: each has the same value in both, or is unbound in both. -/
def Environment.AgreeOn (names : List Text) (env env' : Environment) : Prop :=
  ∀ name ∈ names, env.lookup name = env'.lookup name

/-- What one line writes, another neither writes nor reads. -/
def Line.Spares (line other : Text) : Prop :=
  ∀ name ∈ Line.written? line, Line.written? other ≠ some name ∧ name ∉ Line.read other

/-- Neither of two lines writes what the other writes or reads. -/
structure Line.Independent (first second : Text) : Prop where
  forth : Line.Spares first second
  back : Line.Spares second first

instance (line other : Text) : Decidable (Line.Spares line other) := by
  unfold Line.Spares
  infer_instance

namespace Session

variable {env env' : Environment} {line : Text}

/-! ## What a line reads -/

theorem query_congr {name : Text} (h : env.lookup name = env'.lookup name) :
    env.query name = env'.query name := by
  rw [Environment.query, h, Environment.query]

/-- The names of an expression decide its value. -/
theorem evaluate_congr_of_agreeOn {source : Text}
    (h : Environment.AgreeOn (Statement.read (.expression source)) env env') :
    evaluate env' source = evaluate env source := by
  cases hread : tokenize source with
  | error cause => rw [evaluate_of_tokenize_error hread, evaluate_of_tokenize_error hread]
  | ok tokens =>
      have hquery : ∀ x, identifier x ∈ tokens → env'.query x = env.query x := by
        intro x hx
        refine query_congr (h x ?_).symm
        rw [Statement.read, hread]
        exact List.mem_filterMap.2 ⟨identifier x, hx, rfl⟩
      rw [evaluate_eq_compute hread, evaluate_eq_compute hread, compute_congr hquery]

theorem resolve?_congr {name : Text} {source : Source}
    (h : Environment.AgreeOn (Statement.read (.assignment name source)) env env') :
    resolve? env' source = resolve? env source := by
  cases source with
  | literal n => rfl
  | copy other => exact (h other List.mem_cons_self).symm

/-- What a statement asks for decides its result. -/
theorem perform_congr {statement : Statement} (h : Environment.AgreeOn statement.read env env') :
    (perform env' statement).1 = (perform env statement).1 := by
  cases statement with
  | blank => rfl
  | command command => cases command <;> rfl
  | assignment name source =>
      have hresolve := resolve?_congr h
      simp only [perform, assign, hresolve]
      cases resolve? env source <;> rfl
  | query name =>
      have hquery := query_congr (h name List.mem_cons_self)
      rw [perform, perform, hquery]
  | expression text => rw [perform, perform, evaluate_congr_of_agreeOn h]

/-- **What a line reads decides its result.** -/
theorem result_congr (h : Environment.AgreeOn (Line.read line) env env') :
    (execute env' line).1 = (execute env line).1 := by
  rw [execute, execute]
  cases hparse : Statement.parse line with
  | error cause => rfl
  | ok statement =>
      rw [Line.read, hparse] at h
      exact perform_congr h

/-! ## What a line writes -/

/-- **What a line does not write stays.** -/
theorem lookup_execute_of_unwritten {name : Text} (h : Line.written? line ≠ some name)
    (env : Environment) : (execute env line).2.lookup name = env.lookup name := by
  obtain ⟨target, source, v, hparse, -, heq⟩ | ⟨-, hsame⟩ := execute_cases env line
  · have hne : name ≠ target := by
      intro htarget
      rw [Line.written?, hparse, htarget] at h
      exact h rfl
    rw [heq, Environment.lookup_assign_of_ne _ hne]
  · rw [hsame]

/-- What a line reads decides what it does to a name. -/
theorem lookup_execute_congr {name : Text} (h : Environment.AgreeOn (Line.read line) env env')
    (hname : env.lookup name = env'.lookup name) :
    (execute env line).2.lookup name = (execute env' line).2.lookup name := by
  obtain ⟨target, source, hparse⟩ | hnone := parse_assignment_or_not line
  · have hresolve : resolve? env' source = resolve? env source := by
      rw [Line.read, hparse] at h
      exact resolve?_congr h
    cases hv : resolve? env source with
    | none =>
        rw [execute_of_unresolved hparse hv, execute_of_unresolved hparse (hresolve.trans hv)]
        exact hname
    | some v =>
        rw [execute_of_resolve hparse hv, execute_of_resolve hparse (hresolve.trans hv),
          Environment.lookup_assign, Environment.lookup_assign, hname]
  · rw [(execute_of_not_assignment hnone env).2, (execute_of_not_assignment hnone env').2]
    exact hname

end Session

/-! ## Independent lines -/

namespace Line

open Session

variable {first second : Text}

/-- A line that spares another leaves it all that it reads. -/
theorem Spares.agreeOn (h : Spares first second) (env : Environment) :
    Environment.AgreeOn (read second) env (execute env first).2 := by
  intro name hname
  have hwritten : written? first ≠ some name := fun hwritten => (h name hwritten).2 hname
  exact (lookup_execute_of_unwritten hwritten env).symm

/-- A line has the result that it has alone, after a line that spares it. -/
theorem Spares.result (h : Spares first second) (env : Environment) :
    (execute (execute env first).2 second).1 = (execute env second).1 :=
  result_congr (h.agreeOn env)

theorem Independent.symm (h : Independent first second) : Independent second first :=
  ⟨h.back, h.forth⟩

/-- After two independent lines, a name that the first does not write is as after the second
alone. -/
theorem Independent.lookup_of_unwritten (h : Independent first second) {name : Text}
    (hname : written? first ≠ some name) (env : Environment) :
    (execute (execute env first).2 second).2.lookup name =
      (execute (execute env second).2 first).2.lookup name := by
  have hkept := lookup_execute_of_unwritten hname env
  calc (execute (execute env first).2 second).2.lookup name
      = (execute env second).2.lookup name :=
        (lookup_execute_congr (h.forth.agreeOn env) hkept.symm).symm
    _ = (execute (execute env second).2 first).2.lookup name :=
        (lookup_execute_of_unwritten hname _).symm

/-- **Two independent lines may change places.** -/
theorem Independent.step_comm (h : Independent first second) (env : Environment) (name : Text) :
    (execute (execute env first).2 second).2.lookup name =
      (execute (execute env second).2 first).2.lookup name := by
  by_cases hname : written? first = some name
  · have hother : written? second ≠ some name := (h.forth name hname).1
    exact (h.symm.lookup_of_unwritten hother env).symm
  · exact h.lookup_of_unwritten hname env

/-- **Rows of independent lines.**  Each line has the result that it has alone. -/
theorem run_of_independent {lines : List Text} (h : lines.Pairwise Independent)
    (env : Environment) : (run env lines).1 = lines.map fun line => (execute env line).1 := by
  induction lines generalizing env with
  | nil => rfl
  | cons line lines ih =>
      obtain ⟨hline, hlines⟩ := List.pairwise_cons.1 h
      have hafter : ∀ other ∈ lines, (execute (execute env line).2 other).1 =
          (execute env other).1 := fun other hother => (hline other hother).forth.result env
      rw [run_cons, ih hlines, List.map_cons, List.map_congr_left hafter]

/-- Environments that cannot be told apart by looking up names are not told apart by lines. -/
theorem lookup_run_congr {env env' : Environment}
    (h : ∀ name, env.lookup name = env'.lookup name) (lines : List Text) :
    ∀ name, (run env lines).2.lookup name = (run env' lines).2.lookup name := by
  induction lines generalizing env env' with
  | nil => exact h
  | cons line lines ih =>
      exact ih fun name => lookup_execute_congr (fun other _ => h other) (h name)

/-- **The variables in the end do not depend on the order of independent lines.** -/
theorem lookup_run_perm {lines other : List Text} (hperm : lines.Perm other)
    (h : lines.Pairwise Independent) (env : Environment) :
    ∀ name, (run env lines).2.lookup name = (run env other).2.lookup name := by
  induction hperm generalizing env with
  | nil => exact fun name => rfl
  | cons line _ ih => exact ih (List.pairwise_cons.1 h).2 (execute env line).2
  | swap first second lines =>
      have hpair : Independent second first :=
        (List.pairwise_cons.1 h).1 first List.mem_cons_self
      exact lookup_run_congr (hpair.step_comm env) lines
  | trans hfront _ ihfront ihback =>
      have hmiddle := (hfront.pairwise_iff Independent.symm).1 h
      exact fun name => (ihfront h env name).trans (ihback hmiddle env name)

/-- **Independent lines commute.**  Neither of two lines writes what the other writes or reads;
then each has the same result in both orders, and all names have the same values in the end.
For what a line reads decides its result, in whatever environment it is carried out. -/
theorem independent_lines_commute :
    (∀ (env : Environment) (first second : Text), Independent first second →
      (run env [first, second]).1 = [(execute env first).1, (execute env second).1] ∧
        (run env [second, first]).1 = [(execute env second).1, (execute env first).1] ∧
          ∀ name, (run env [first, second]).2.lookup name =
            (run env [second, first]).2.lookup name) ∧
      ∀ (env env' : Environment) (line : Text), Environment.AgreeOn (read line) env env' →
        (execute env line).1 = (execute env' line).1 := by
  refine ⟨?_, fun env env' line h => (result_congr h).symm⟩
  intro env first second h
  have hforth : [first, second].Pairwise Independent := by simpa using h
  have hback : [second, first].Pairwise Independent := by simpa using h.symm
  exact ⟨run_of_independent hforth env, run_of_independent hback env,
    lookup_run_perm (List.Perm.swap second first []) hforth env⟩

/-- A copy, and a quotient that fails for want of a name. -/
theorem independent_lines_commute_failing :
    Independent "b = a".toList "a / (c - a)".toList ∧
      (run (Environment.empty.assign ['a'] 7) ["b = a".toList, "a / (c - a)".toList]).1 =
        [.ok .assigned, .error (.eval (.unknownVariable ['c']))] ∧
      (run (Environment.empty.assign ['a'] 7) ["a / (c - a)".toList, "b = a".toList]).1 =
        [.error (.eval (.unknownVariable ['c'])), .ok .assigned] ∧
      Environment.AgreeOn (read "b = a".toList) (Environment.empty.assign ['a'] 7)
        ((Environment.empty.assign ['c'] 1).assign ['a'] 7) ∧
      (execute (Environment.empty.assign ['a'] 7) "b = a".toList).1 =
        (execute ((Environment.empty.assign ['c'] 1).assign ['a'] 7) "b = a".toList).1 :=
  have hpair : Independent "b = a".toList "a / (c - a)".toList := ⟨by decide, by decide⟩
  have hresults := independent_lines_commute.1 (Environment.empty.assign ['a'] 7) _ _ hpair
  have hagree : Environment.AgreeOn (read "b = a".toList) (Environment.empty.assign ['a'] 7)
      ((Environment.empty.assign ['c'] 1).assign ['a'] 7) := by
    unfold Environment.AgreeOn
    decide
  ⟨hpair, hresults.1, hresults.2.1, hagree, independent_lines_commute.2 _ _ _ hagree⟩

end Line

end Calculator
