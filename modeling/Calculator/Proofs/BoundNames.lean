import Calculator.Proofs.Assignments
import Calculator.Proofs.Faults
import Calculator.Proofs.Recollection

/-!
# What is bound, and stays bound

The environments that a session comes to are **founded** on its lines: only
names are bound in them, and each value is a literal that some line assigned.
One line keeps this up, for it binds the name on its left to a literal of its
own or to a value that was there before; and so do any lines, from none at all.

A name once bound is never unbound, so from then on asking for it gives its
value, a copy of it succeeds, and no line fails for want of it.

* `lookup_of_unknownVariable` — only an unbound name is ever reported as unknown;
* `execute_name`, `execute_written`, `execute_copy` — asking for a bound name, binding a name,
  and copying a bound one;
* `size_execute`, `size_run` — a line adds one variable at most, and takes none away;
* `founded_execute`, `founded_environment` — one line keeps an environment founded, and
  so the environments of a session are.
-/

namespace Calculator

namespace ReversePolish

/-- A row of tokens reports a name as unknown only if the name is not bound. -/
theorem lookup_of_evaluate {env : Environment} {row : List Token} {name : Text}
    (h : evaluate env row = .error (.unknownVariable name)) : env.lookup name = none := by
  obtain ⟨front, t, back, values, -, -, hfault⟩ | ⟨values, -, -, hleftover⟩ :=
    evaluate_eq_error_iff.1 h
  · exact (fault_unknownVariable_iff.1 hfault).2
  · cases hleftover

end ReversePolish

namespace Session

/-- **Only an unbound name is reported as unknown**, by any line. -/
theorem lookup_of_unknownVariable {env : Environment} {line name : Text}
    (h : (execute env line).1 = .error (.eval (.unknownVariable name))) :
    env.lookup name = none := by
  obtain ⟨x, hquery⟩ | ⟨tokens, row, -, hvalue⟩ := execute_eval_error h
  · obtain ⟨hnone, hcause⟩ := Environment.query_eq_error_iff.1 hquery
    cases hcause
    exact hnone
  · exact ReversePolish.lookup_of_evaluate hvalue

/-- Asking for a bound name gives its value. -/
theorem execute_name {env : Environment} {name : Text} {v : Int} (hname : name.isIdentifier)
    (h : env.lookup name = some v) : execute env name = (.ok (.value v), env) := by
  rw [execute, Statement.parse_query hname]
  simp [perform, Environment.query_eq_ok_iff.2 h, Except.map, Except.mapError]

/-- An assignment that was written binds its name to what its source yields. -/
theorem execute_written {env : Environment} {name text : Text} {source : Source} {v : Int}
    (hname : name.isIdentifier) (hsource : source.WrittenAs text)
    (h : resolve? env source = some v) {left right : Text} (hleft : ∀ c ∈ left, Text.isBlank c)
    (hright : ∀ c ∈ right, Text.isBlank c) :
    execute env (name ++ left ++ '=' :: (right ++ text)) = (.ok .assigned, env.assign name v) := by
  have hparse := Statement.parse_written hname hsource (List.forall_mem_nil _) hleft hright
    (List.forall_mem_nil _)
  rw [List.nil_append, List.append_nil] at hparse
  exact execute_of_resolve hparse h

/-- A copy of a bound name succeeds. -/
theorem execute_copy {env : Environment} {target name : Text} {v : Int}
    (htarget : target.isIdentifier) (hname : name.isIdentifier) (h : env.lookup name = some v)
    {left right : Text} (hleft : ∀ c ∈ left, Text.isBlank c)
    (hright : ∀ c ∈ right, Text.isBlank c) :
    execute env (target ++ (left ++ '=' :: right) ++ name) =
      (.ok .assigned, env.assign target v) := by
  have hwritten := execute_written htarget (.copy hname) h hleft hright
  simpa using hwritten

/-- A line adds one variable at most, and takes none away. -/
theorem size_execute (env : Environment) (line : Text) :
    env.size ≤ (execute env line).2.size ∧ (execute env line).2.size ≤ env.size + 1 := by
  rcases execute_cases env line with ⟨name, source, v, -, -, heq⟩ | ⟨-, hsame⟩
  · rw [heq, Environment.size_assign]
    split <;> omega
  · rw [hsame]
    omega

/-- Lines add one variable each at most, and take none away. -/
theorem size_run (env : Environment) (lines : List Text) :
    env.size ≤ (run env lines).2.size ∧ (run env lines).2.size ≤ env.size + lines.length := by
  induction lines generalizing env with
  | nil => simp
  | cons line lines ih =>
      have hline := size_execute env line
      have hlines := ih (execute env line).2
      rw [run_cons, List.length_cons]
      dsimp only
      omega

end Session

namespace History

open Session

/-- Some line assigned the literal, and succeeded. -/
def Wrote (lines : List Text) (v : Int) : Prop :=
  ∃ earlier line later target, lines = earlier ++ line :: later ∧
    Stores (environment earlier) line target (.literal v)

/-- An environment is founded on lines if only names are bound in it, and only to literals that
the lines assigned. -/
structure Founded (lines : List Text) (env : Environment) : Prop where
  identifier : ∀ name v, env.lookup name = some v → name.isIdentifier
  wrote : ∀ name v, env.lookup name = some v → Wrote lines v

/-- What was written stays written. -/
theorem Wrote.append {lines : List Text} {v : Int} (h : Wrote lines v) (more : List Text) :
    Wrote (lines ++ more) v := by
  obtain ⟨earlier, line, later, target, rfl, hstores⟩ := h
  exact ⟨earlier, line, later ++ more, target, by simp, hstores⟩

/-- **One line keeps an environment founded.** -/
theorem founded_execute {lines : List Text} (h : Founded lines (environment lines))
    (line : Text) : Founded (lines ++ [line]) (execute (environment lines) line).2 := by
  rcases execute_cases (environment lines) line with
    ⟨target, source, v, hparse, hsource, heq⟩ | ⟨-, hsame⟩
  · have hwrote : Wrote (lines ++ [line]) v := by
      cases source with
      | literal n =>
          cases hsource
          exact ⟨lines, line, [], target, rfl, hparse, by rw [heq]⟩
      | copy other => exact (h.wrote other v hsource).append [line]
    rw [heq]
    constructor
    · intro name w hw
      rw [Environment.lookup_assign] at hw
      split at hw
      · next hname =>
        rw [hname]
        exact Statement.isIdentifier_of_parse hparse
      · exact h.identifier name w hw
    · intro name w hw
      rw [Environment.lookup_assign] at hw
      split at hw
      · cases hw
        exact hwrote
      · exact (h.wrote name w hw).append [line]
  · rw [hsame]
    exact ⟨h.identifier, fun name w hw => (h.wrote name w hw).append [line]⟩

/-- **The environments of a session are founded on its lines.** -/
theorem founded_environment (lines : List Text) : Founded lines (environment lines) := by
  induction lines using List.reverseRecOn with
  | nil => exact ⟨fun _ _ h => (by cases h), fun _ _ h => (by cases h)⟩
  | append_singleton lines line ih =>
      rw [environment_append]
      exact founded_execute ih line

/-- **A bound name stays bound, for every purpose.**  After any lines, what is bound is a name,
and its value is a literal that one of the lines assigned.  After any more lines it is still
bound: asking for it gives its value, no line fails for want of it, and any name may be given
its value.  There are never fewer variables than before, and at most one more for each line. -/
theorem bound_name_stays_bound (lines more : List Text) :
    (∀ name v, (environment lines).lookup name = some v →
      name.isIdentifier ∧
      (∃ earlier line later target, lines = earlier ++ line :: later ∧
        Stores (environment earlier) line target (.literal v)) ∧
      ∃ w, (environment (lines ++ more)).lookup name = some w ∧
        execute (environment (lines ++ more)) name =
          (.ok (.value w), environment (lines ++ more)) ∧
        (∀ line, (execute (environment (lines ++ more)) line).1 ≠
          .error (.eval (.unknownVariable name))) ∧
        ∀ target left right, target.isIdentifier → (∀ c ∈ left, Text.isBlank c) →
          (∀ c ∈ right, Text.isBlank c) →
          execute (environment (lines ++ more)) (target ++ (left ++ '=' :: right) ++ name) =
            (.ok .assigned, (environment (lines ++ more)).assign target w)) ∧
      (environment lines).size ≤ (environment (lines ++ more)).size ∧
      (environment (lines ++ more)).size ≤ (environment lines).size + more.length := by
  constructor
  · intro name v hv
    have hname : name.isIdentifier := (founded_environment lines).identifier name v hv
    have hstill : ((environment (lines ++ more)).lookup name).isSome := by
      rw [environment_append]
      exact isSome_lookup_run (Option.isSome_of_eq_some hv) more
    obtain ⟨w, hw⟩ := Option.isSome_iff_exists.1 hstill
    refine ⟨hname, (founded_environment lines).wrote name v hv, w, hw, execute_name hname hw,
      ?_, ?_⟩
    · intro line hline
      rw [lookup_of_unknownVariable hline] at hw
      cases hw
    · intro target left right htarget hleft hright
      exact execute_copy htarget hname hw hleft hright
  · rw [environment_append]
    exact size_run (environment lines) more

/-- The copy of a literal is bound to it, whatever becomes of the name it was copied from. -/
theorem bound_name_stays_bound_copy :
    (environment ["a = 7".toList, "b = a".toList]).lookup ['b'] = some 7 ∧
      (∃ earlier line later target, ["a = 7".toList, "b = a".toList] = earlier ++ line :: later ∧
        Stores (environment earlier) line target (.literal 7)) ∧
      (∃ w, execute (environment ["a = 7".toList, "b = a".toList, "a = 5".toList]) ['b'] =
        (.ok (.value w), environment ["a = 7".toList, "b = a".toList, "a = 5".toList])) ∧
      ∃ w, execute (environment ["a = 7".toList, "b = a".toList, "a = 5".toList])
          "c = b".toList =
        (.ok .assigned,
          (environment ["a = 7".toList, "b = a".toList, "a = 5".toList]).assign ['c'] w) := by
  have hbound : (environment ["a = 7".toList, "b = a".toList]).lookup ['b'] = some 7 := by rfl
  have hblank : ∀ c ∈ [' '], Text.isBlank c := List.forall_mem_singleton.2 rfl
  obtain ⟨-, hwrote, w, -, hquery, -, hcopy⟩ :=
    (bound_name_stays_bound ["a = 7".toList, "b = a".toList] ["a = 5".toList]).1 _ _ hbound
  exact ⟨hbound, hwrote, ⟨w, hquery⟩, w, hcopy ['c'] [' '] [' '] (by decide) hblank hblank⟩

end History

end Calculator
