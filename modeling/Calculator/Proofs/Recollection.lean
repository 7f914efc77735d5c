import Calculator.Proofs.LineEffects
import Calculator.Session.History
import Mathlib.Data.List.Dedup
import Mathlib.Data.List.Induction

/-!
# What a session remembers

A line **stores** under a name when it says an assignment to the name and
succeeds.  Only the latest line that stores under a name counts for it: the
lines behind leave the name **untouched**, so it still has what this line gave
it, which is a literal, or what another name had right before the line.  What
the other name had is told by the lines before in the same way (`Tells`).

* `lookup_run_of_untouched`, `isSome_lookup_run` — an untouched name keeps its
  value, and a bound name stays bound;
* `lookup_of_storesLast` — the latest line that stores under a name decides;
* `lookup_eq_some_iff` — the values of a session are those that its lines tell;
* `lookup_reverse` — they are found by going back over the lines;
* `size_eq_dedup` — there are as many variables as names with a successful assignment.
-/

namespace Calculator.History

open Session

/-- A line says an assignment to a name, and succeeds. -/
def Stores (env : Environment) (line name : Text) (source : Source) : Prop :=
  Statement.parse line = .ok (.assignment name source) ∧ (execute env line).1 = .ok .assigned

/-- None of the lines stores under the name, each carried out after those before it. -/
def Untouched (name : Text) : Environment → List Text → Prop
  | _, [] => True
  | env, line :: lines =>
    (∀ source, ¬Stores env line name source) ∧ Untouched name (execute env line).2 lines

/-- The environment that lines leave when the first of them finds nothing bound. -/
def environment (lines : List Text) : Environment :=
  (run Environment.empty lines).2

/-- The latest of the lines that store under a name comes after the `earlier` ones. -/
def StoresLast (lines : List Text) (name : Text) (earlier : List Text) (source : Source) : Prop :=
  ∃ line later, lines = earlier ++ line :: later ∧
    Stores (environment earlier) line name source ∧
      Untouched name (execute (environment earlier) line).2 later

/-- What lines tell of a name: the latest of them that stores under it decides, by its literal,
or by what the lines before it tell of the name that it copies. -/
inductive Tells : List Text → Text → Int → Prop
  | literal {lines earlier : List Text} {name : Text} {n : Int}
      (last : StoresLast lines name earlier (.literal n)) : Tells lines name n
  | copy {lines earlier : List Text} {name other : Text} {v : Int}
      (last : StoresLast lines name earlier (.copy other)) (before : Tells earlier other v) :
      Tells lines name v

/-! ## One line -/

/-- A line that stores gives the name what its source yields. -/
theorem lookup_of_stores {env : Environment} {line name : Text} {source : Source}
    (h : Stores env line name source) :
    ∃ v, resolve? env source = some v ∧ (execute env line).2.lookup name = some v := by
  obtain ⟨hparse, hassigned⟩ := h
  obtain ⟨v, hv⟩ := (execute_assigned_iff hparse).1 hassigned
  refine ⟨v, hv, ?_⟩
  rw [execute_of_resolve hparse hv, Environment.lookup_assign_self]

/-- A line that does not store under a name leaves it as it was. -/
theorem lookup_of_not_stores {env : Environment} {line name : Text}
    (h : ∀ source, ¬Stores env line name source) :
    (execute env line).2.lookup name = env.lookup name := by
  rcases execute_cases env line with ⟨target, source, v, hparse, -, heq⟩ | ⟨-, hsame⟩
  · have hne : name ≠ target := by
      rintro rfl
      exact h source ⟨hparse, by rw [heq]⟩
    rw [heq, Environment.lookup_assign_of_ne _ hne]
  · rw [hsame]

/-- A bound name is bound after any line. -/
theorem isSome_lookup_execute {env : Environment} {name : Text} (h : (env.lookup name).isSome)
    (line : Text) : ((execute env line).2.lookup name).isSome := by
  by_cases hstores : ∃ source, Stores env line name source
  · obtain ⟨source, hsource⟩ := hstores
    obtain ⟨v, -, hv⟩ := lookup_of_stores hsource
    exact Option.isSome_of_eq_some hv
  · rw [lookup_of_not_stores (not_exists.1 hstores)]
    exact h

/-! ## A row of lines -/

/-- **An untouched name keeps its value.** -/
theorem lookup_run_of_untouched {env : Environment} {name : Text} {lines : List Text}
    (h : Untouched name env lines) : (run env lines).2.lookup name = env.lookup name := by
  induction lines generalizing env with
  | nil => rfl
  | cons line lines ih =>
      obtain ⟨hline, hlines⟩ := h
      calc (run env (line :: lines)).2.lookup name
          = (execute env line).2.lookup name := ih hlines
        _ = env.lookup name := lookup_of_not_stores hline

/-- **A bound name stays bound.** -/
theorem isSome_lookup_run {env : Environment} {name : Text} (h : (env.lookup name).isSome)
    (lines : List Text) : ((run env lines).2.lookup name).isSome := by
  induction lines generalizing env with
  | nil => exact h
  | cons line lines ih => exact ih (isSome_lookup_execute h line)

theorem untouched_append {env : Environment} {name : Text} {first second : List Text} :
    Untouched name env (first ++ second) ↔
      Untouched name env first ∧ Untouched name (run env first).2 second := by
  induction first generalizing env with
  | nil => simp [Untouched]
  | cons line first ih => simp [Untouched, ih, and_assoc]

/-- An unbound name that is touched by some line is bound in the end. -/
theorem isSome_lookup_of_touched {env : Environment} {name : Text} {lines : List Text}
    (h : ¬Untouched name env lines) : ((run env lines).2.lookup name).isSome := by
  induction lines generalizing env with
  | nil => exact absurd trivial h
  | cons line lines ih =>
      by_cases hstores : ∃ source, Stores env line name source
      · obtain ⟨source, hsource⟩ := hstores
        obtain ⟨v, -, hv⟩ := lookup_of_stores hsource
        have hbound : ((execute env line).2.lookup name).isSome := Option.isSome_of_eq_some hv
        exact isSome_lookup_run hbound lines
      · exact ih fun hlines => h ⟨not_exists.1 hstores, hlines⟩

theorem environment_append (earlier later : List Text) :
    environment (earlier ++ later) = (run (environment earlier) later).2 := by
  rw [environment, run_append]
  rfl

/-- The names without a value are those that no line stores under. -/
theorem lookup_eq_none_iff {lines : List Text} {name : Text} :
    (environment lines).lookup name = none ↔ Untouched name Environment.empty lines := by
  constructor
  · intro hnone
    by_contra htouched
    have hsome := isSome_lookup_of_touched htouched
    rw [environment] at hnone
    simp [hnone] at hsome
  · intro huntouched
    exact lookup_run_of_untouched huntouched

/-! ## The latest line that stores under a name -/

/-- **The latest line that stores under a name decides.** -/
theorem lookup_of_storesLast {lines earlier : List Text} {name : Text} {source : Source}
    (h : StoresLast lines name earlier source) :
    ∃ v, resolve? (environment earlier) source = some v ∧
      (environment lines).lookup name = some v := by
  obtain ⟨line, later, rfl, hstores, huntouched⟩ := h
  obtain ⟨v, hsource, hv⟩ := lookup_of_stores hstores
  refine ⟨v, hsource, ?_⟩
  rw [environment_append, ← hv]
  exact lookup_run_of_untouched huntouched

/-- If any line stores under a name, one of them is the latest. -/
theorem exists_storesLast {lines : List Text} {name : Text}
    (h : ¬Untouched name Environment.empty lines) :
    ∃ earlier source, StoresLast lines name earlier source := by
  -- From the back: either the last line stores, or the latest one is among those before it.
  induction lines using List.reverseRecOn with
  | nil => exact absurd trivial h
  | append_singleton lines line ih =>
      by_cases hstores : ∃ source, Stores (environment lines) line name source
      · obtain ⟨source, hsource⟩ := hstores
        exact ⟨lines, source, line, [], rfl, hsource, trivial⟩
      · have hline : Untouched name (environment lines) [line] :=
          ⟨not_exists.1 hstores, trivial⟩
        have hlines : ¬Untouched name Environment.empty lines :=
          fun huntouched => h (untouched_append.2 ⟨huntouched, hline⟩)
        obtain ⟨earlier, source, next, later, rfl, hsource, hlater⟩ := ih hlines
        refine ⟨earlier, source, next, later ++ [line], by simp, hsource, ?_⟩
        rw [environment_append] at hline
        exact untouched_append.2 ⟨hlater, hline⟩

/-- A name is touched exactly if some line stores under it. -/
theorem not_untouched_iff {lines : List Text} {name : Text} :
    ¬Untouched name Environment.empty lines ↔
      ∃ earlier line later source, lines = earlier ++ line :: later ∧
        Stores (environment earlier) line name source := by
  constructor
  · intro h
    obtain ⟨earlier, source, line, later, hlines, hstores, -⟩ := exists_storesLast h
    exact ⟨earlier, line, later, source, hlines, hstores⟩
  · intro h huntouched
    obtain ⟨earlier, line, later, source, rfl, hstores⟩ := h
    have hlater := (untouched_append.1 huntouched).2
    exact hlater.1 source hstores

/-- **The values of a session are those that its lines tell.** -/
theorem lookup_eq_some_iff {lines : List Text} {name : Text} {v : Int} :
    (environment lines).lookup name = some v ↔ Tells lines name v := by
  constructor
  · intro hv
    -- A copy leads to fewer lines, those before it.
    induction hlength : lines.length using Nat.strongRecOn generalizing lines name with
    | ind k ih =>
      have htouched : ¬Untouched name Environment.empty lines := by
        rw [← lookup_eq_none_iff, hv]
        simp
      obtain ⟨earlier, source, hlast⟩ := exists_storesLast htouched
      obtain ⟨w, hsource, hw⟩ := lookup_of_storesLast hlast
      have heq : w = v := Option.some.inj (hw.symm.trans hv)
      cases source with
      | literal n =>
          have hn : n = v := (Option.some.inj hsource).trans heq
          rw [hn] at hlast
          exact Tells.literal hlast
      | copy other =>
          have hshorter : earlier.length < k := by
            obtain ⟨line, later, rfl, -⟩ := hlast
            simp only [List.length_append, List.length_cons] at hlength
            omega
          exact Tells.copy hlast (ih _ hshorter (heq ▸ hsource) rfl)
  · intro htells
    induction htells with
    | literal last =>
        obtain ⟨w, hsource, hw⟩ := lookup_of_storesLast last
        rw [hw, ← hsource]
        rfl
    | copy last before ih =>
        obtain ⟨w, hsource, hw⟩ := lookup_of_storesLast last
        rw [hw, ← hsource]
        exact ih

/-! ## Going back over the lines -/

/-- What a source yields after lines, listed from the latest to the earliest. -/
def resolved? (earlier : List Text) : Source → Option Int
  | .literal n => some n
  | .copy other => value? earlier other

theorem value?_assignment {line target : Text} {source : Source}
    (h : Statement.parse line = .ok (.assignment target source)) (earlier : List Text)
    (name : Text) :
    value? (line :: earlier) name =
      if target = name then (resolved? earlier source).or (value? earlier name)
      else value? earlier name := by
  cases source <;> simp [value?, h, resolved?]

/-- If going back over the lines finds the values of all names, it finds what sources yield. -/
theorem resolve?_eq_resolved? {env : Environment} {earlier : List Text}
    (h : ∀ name, env.lookup name = value? earlier name) (source : Source) :
    resolve? env source = resolved? earlier source := by
  cases source with
  | literal n => rfl
  | copy other => exact h other

/-- **Going back over the lines finds the values of all names.** -/
theorem lookup_reverse (history : List Text) (name : Text) :
    (environment history.reverse).lookup name = value? history name := by
  induction history generalizing name with
  | nil => rfl
  | cons line earlier ih =>
      rw [List.reverse_cons, environment_append]
      change (execute (environment earlier.reverse) line).2.lookup name = _
      rcases parse_assignment_or_not line with ⟨target, source, hparse⟩ | hnone
      · rw [value?_assignment hparse, ← resolve?_eq_resolved? ih]
        cases hv : resolve? (environment earlier.reverse) source with
        | some v =>
            rw [execute_of_resolve hparse hv, Environment.lookup_assign, ih]
            simp [eq_comm]
        | none =>
            rw [execute_of_unresolved hparse hv, ih]
            simp
      · rw [(execute_of_not_assignment hnone _).2, ih, value?_of_not_assignment hnone]

/-- The names that the lines have given a value are those of which they tell one. -/
theorem mem_assigned_iff {history : List Text} {name : Text} :
    name ∈ assigned history ↔ (value? history name).isSome := by
  induction history with
  | nil => simp [assigned]
  | cons line earlier ih =>
      rcases parse_assignment_or_not line with ⟨target, source, hparse⟩ | hnone
      · rw [value?_assignment hparse]
        cases source with
        | literal n =>
            by_cases hname : name = target
            · simp [assigned, hparse, resolved?, hname]
            · simp [assigned, hparse, hname, Ne.symm hname, ih]
        | copy other =>
            cases hother : value? earlier other with
            | none => simp [assigned, hparse, resolved?, hother, ih]
            | some v =>
                by_cases hname : name = target
                · simp [assigned, hparse, resolved?, hother, hname]
                · simp [assigned, hparse, hother, hname, Ne.symm hname, ih]
      · rw [value?_of_not_assignment hnone, ← ih, assigned]
        split
        · next hparse => exact absurd hparse (hnone _ _)
        · next hparse => exact absurd hparse (hnone _ _)
        · rfl

/-- **There are as many variables as names with a successful assignment.** -/
theorem size_eq_dedup (history : List Text) :
    (environment history.reverse).size = (assigned history).dedup.length := by
  have hnames : (environment history.reverse).names.Perm (assigned history).dedup := by
    refine (List.perm_ext_iff_of_nodup (environment history.reverse).distinct
      (List.nodup_dedup _)).2 fun name => ?_
    rw [List.mem_dedup, mem_assigned_iff, ← lookup_reverse]
    exact Environment.mem_names_iff
  rw [← Environment.length_names, hnames.length_eq]

/-- **A session is its history.**  After any row of lines the value of a name is what the row
tells of it, and a name that no line stores under has none; going back over the lines finds the
same.  An assignment of a literal always succeeds, and one of a name exactly if the lines before
it tell of that name.  There are as many variables as names with a successful assignment. -/
theorem session_is_its_history (lines : List Text) :
    (∀ name v, (environment lines).lookup name = some v ↔ Tells lines name v) ∧
      (∀ name, (environment lines).lookup name = none ↔
        Untouched name Environment.empty lines) ∧
      (∀ name, (environment lines).lookup name = value? lines.reverse name) ∧
      (∀ earlier line later name, lines = earlier ++ line :: later →
        (∀ n, Statement.parse line = .ok (.assignment name (.literal n)) →
          (execute (environment earlier) line).1 = .ok .assigned) ∧
        ∀ other, Statement.parse line = .ok (.assignment name (.copy other)) →
          ((execute (environment earlier) line).1 = .ok .assigned ↔
            ∃ v, Tells earlier other v)) ∧
      (environment lines).size = (assigned lines.reverse).dedup.length ∧
      ∀ name, name ∈ assigned lines.reverse ↔
        ∃ earlier line later source, lines = earlier ++ line :: later ∧
          Stores (environment earlier) line name source := by
  refine ⟨fun name v => lookup_eq_some_iff, fun name => lookup_eq_none_iff, ?_, ?_, ?_, ?_⟩
  · intro name
    have hback := lookup_reverse lines.reverse name
    rwa [List.reverse_reverse] at hback
  · intro earlier line later name _
    constructor
    · intro n hparse
      exact (execute_assigned_iff hparse).2 ⟨n, rfl⟩
    · intro other hparse
      rw [execute_assigned_iff hparse]
      exact exists_congr fun v => lookup_eq_some_iff
  · have hsize := size_eq_dedup lines.reverse
    rwa [List.reverse_reverse] at hsize
  · intro name
    rw [mem_assigned_iff, ← lookup_reverse, List.reverse_reverse, ← not_untouched_iff,
      ← lookup_eq_none_iff, Option.isSome_iff_ne_none]

/-- A copy that fails, the same copy once its name is bound, and a later change of that name. -/
theorem session_is_its_history_copy :
    Tells ["b = a".toList, "a = 5".toList, "b = a".toList, "a = 7".toList] ['b'] 5 ∧
      (environment ["b = a".toList, "a = 5".toList, "b = a".toList, "a = 7".toList]).size =
        2 ∧
      (¬∃ v, Tells [] ['a'] v) ∧ ∃ v, Tells ["b = a".toList, "a = 5".toList] ['a'] v := by
  have hparse : Statement.parse "b = a".toList = .ok (.assignment ['b'] (.copy ['a'])) := by rfl
  have hfailed : (execute (environment []) "b = a".toList).1 =
      .error (.parse .invalidAssignment) := by rfl
  have hassigned : (execute (environment ["b = a".toList, "a = 5".toList]) "b = a".toList).1 =
      .ok .assigned := by rfl
  have hhistory := session_is_its_history
    ["b = a".toList, "a = 5".toList, "b = a".toList, "a = 7".toList]
  refine ⟨(hhistory.1 _ _).1 (by rfl), hhistory.2.2.2.2.1, ?_, ?_⟩
  · intro htells
    have hfirst := ((hhistory.2.2.2.1 [] _ _ ['b'] rfl).2 _ hparse).2 htells
    rw [hfailed] at hfirst
    cases hfirst
  · exact ((hhistory.2.2.2.1 ["b = a".toList, "a = 5".toList] _ _ ['b'] rfl).2 _ hparse).1 hassigned

end Calculator.History
