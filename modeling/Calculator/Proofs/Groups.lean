import Calculator.Proofs.Seams

/-!
# A group stands for itself

A closing parenthesis brings the yard back to where it was at the opening one,
and all operators of the group have left by then.  So what leaves during a group
is what leaves when its row is all there is, whatever waits around it; and the
yard refuses no row whose parentheses are balanced.

In reverse Polish order a group is therefore the row of what is inside, and two
groups with an operator between them are two such rows and the operator.  If
each of the two has a value, whatever it looks like, they are the listings of
two trees, and the whole is the listing of the tree above them.

* `Yard.run_above` — what a row does does not depend on the groups around it;
* `Yard.run_group` — a group leaves the yard as it was;
* `Yard.depth_run` — the parentheses of a row tell how many groups are open at its end;
* `exists_arrange_iff` — the rows that are not refused are the balanced ones;
* `compute_group`, `compute_between_groups` — what the value of a group is good for.
-/

namespace Calculator

open Token

namespace ReversePolish

namespace Yard

/-- The yard with further groups around those that are open. -/
def above (outer : List (List Operator)) (yard : Yard) : Yard :=
  { yard with enclosing := yard.enclosing ++ outer }

/-! ## The groups around a row -/

theorem step_above {yard next : Yard} {token : Token} {leaving : List Token}
    (h : yard.step token = .ok (leaving, next)) (outer : List (List Operator)) :
    (yard.above outer).step token = .ok (leaving, next.above outer) := by
  cases token with
  | number n => cases h; rfl
  | identifier x => cases h; rfl
  | operator op => cases h; rfl
  | leftParen => cases h; rfl
  | rightParen =>
      obtain ⟨henclosing, rfl⟩ := step_rightParen h
      simp [step, above, henclosing]

/-- **What a row does does not depend on the groups around it**, unless it closes them. -/
theorem run_above {yard last : Yard} {tokens out : List Token}
    (h : yard.run tokens = .ok (out, last)) (outer : List (List Operator)) :
    (yard.above outer).run tokens = .ok (out, last.above outer) := by
  induction tokens generalizing yard out with
  | nil => cases h; rfl
  | cons token tokens ih =>
      obtain ⟨leaving, next, later, hstep, hrun, rfl⟩ := run_cons_ok h
      exact run_append_ok (run_singleton (step_above hstep outer)) (ih hrun)

/-- **A group leaves the yard as it was**, and what leaves during it is the arranged row. -/
theorem run_group {tokens row : List Token} (h : arrange tokens = .ok row) (yard : Yard) :
    yard.run (group tokens) = .ok (row, yard) := by
  obtain ⟨out, last, hrun, hclosed, rfl⟩ := arrange_ok h
  have hopen : yard.run [leftParen] = .ok ([], empty.above (yard.waiting :: yard.enclosing)) :=
    run_singleton rfl
  have hinner := run_above hrun (yard.waiting :: yard.enclosing)
  have hclose : (last.above (yard.waiting :: yard.enclosing)).run [rightParen] =
      .ok (last.waiting.map .operator, yard) := by
    refine run_singleton ?_
    simp [step, above, hclosed]
  exact run_append_ok (run_append_ok hopen hinner) hclose

/-! ## Balanced rows -/

/-- An opening parenthesis opens a group, and a closing one closes one. -/
theorem depth_step {yard next : Yard} {token : Token} {leaving : List Token}
    (h : yard.step token = .ok (leaving, next)) :
    next.depth + [token].count rightParen = yard.depth + [token].count leftParen := by
  cases token with
  | number n => cases h; rfl
  | identifier x => cases h; rfl
  | operator op => cases h; rfl
  | leftParen => cases h; rfl
  | rightParen =>
      obtain ⟨henclosing, -⟩ := step_rightParen h
      simp [depth, henclosing]

/-- **The parentheses of a row tell how many groups are open at its end.** -/
theorem depth_run {yard last : Yard} {tokens out : List Token}
    (h : yard.run tokens = .ok (out, last)) :
    last.depth + tokens.count rightParen = yard.depth + tokens.count leftParen := by
  induction tokens generalizing yard out with
  | nil => cases h; rfl
  | cons token tokens ih =>
      obtain ⟨leaving, next, later, hstep, hrun, -⟩ := run_cons_ok h
      have hfirst := depth_step hstep
      have hrest := ih hrun
      rw [← List.singleton_append, List.count_append, List.count_append]
      omega

/-- A token is not refused unless it closes a group and none is open. -/
theorem exists_step {yard : Yard} {token : Token} (h : token = rightParen → 0 < yard.depth) :
    ∃ leaving next, yard.step token = .ok (leaving, next) := by
  cases hstep : yard.step token with
  | ok result => exact ⟨result.1, result.2, rfl⟩
  | error cause =>
      obtain ⟨htoken, henclosing, -⟩ := step_error hstep
      have hopen := h htoken
      rw [depth, henclosing] at hopen
      cases hopen

/-- **A row that never closes more groups than are open** is not refused. -/
theorem run_of_front {yard : Yard} {tokens : List Token}
    (h : ∀ part rest, part ++ rest = tokens →
      part.count rightParen ≤ yard.depth + part.count leftParen) :
    ∃ out last, yard.run tokens = .ok (out, last) := by
  induction tokens generalizing yard with
  | nil => exact ⟨[], yard, rfl⟩
  | cons token tokens ih =>
      have hfirst : token = rightParen → 0 < yard.depth := by
        rintro rfl
        have hpart := h [rightParen] tokens rfl
        simpa [Nat.pos_iff_ne_zero, Nat.one_le_iff_ne_zero] using hpart
      obtain ⟨leaving, next, hstep⟩ := exists_step hfirst
      have hnext : ∀ part rest, part ++ rest = tokens →
          part.count rightParen ≤ next.depth + part.count leftParen := by
        intro part rest hsplit
        have hpart := h ([token] ++ part) rest (by rw [List.append_assoc, hsplit]; rfl)
        have hdepth := depth_step hstep
        rw [List.count_append, List.count_append] at hpart
        omega
      obtain ⟨later, last, hrun⟩ := ih hnext
      exact ⟨leaving ++ later, last, run_append_ok (run_singleton hstep) hrun⟩

end Yard

/-- A balanced row is not refused. -/
theorem arrange_of_balanced {tokens : List Token} (h : Balanced leftParen rightParen tokens) :
    ∃ row, arrange tokens = .ok row := by
  have hempty : Yard.empty.depth = 0 := rfl
  have hfront : ∀ part rest, part ++ rest = tokens →
      part.count rightParen ≤ Yard.empty.depth + part.count leftParen := by
    intro part rest hsplit
    have hpart := h.front part rest hsplit
    omega
  obtain ⟨out, last, hrun⟩ := Yard.run_of_front hfront
  have hdepth := Yard.depth_run hrun
  have hclosed : last.enclosing = [] := by
    have htotal := h.total
    refine List.length_eq_zero_iff.1 ?_
    change last.depth = 0
    omega
  exact ⟨_, arrange_of_run hrun hclosed⟩

/-- And a row that is not refused is balanced. -/
theorem balanced_of_arrange {tokens row : List Token} (h : arrange tokens = .ok row) :
    Balanced leftParen rightParen tokens := by
  obtain ⟨out, last, hrun, hclosed, -⟩ := arrange_ok h
  have hempty : Yard.empty.depth = 0 := rfl
  refine ⟨fun part rest hsplit => ?_, ?_⟩
  · rw [← hsplit] at hrun
    obtain ⟨early, between, later, hpart, -, -⟩ := Yard.run_append_cases hrun
    have hdepth := Yard.depth_run hpart
    omega
  · have hdepth := Yard.depth_run hrun
    have hlast : last.depth = 0 := by rw [Yard.depth, hclosed]; rfl
    omega

/-- **The rows that are not refused are the balanced ones.** -/
theorem exists_arrange_iff {tokens : List Token} :
    (∃ row, arrange tokens = .ok row) ↔ Balanced leftParen rightParen tokens :=
  ⟨fun ⟨_, hrow⟩ => balanced_of_arrange hrow, arrange_of_balanced⟩

/-! ## The value of a group -/

/-- A group is arranged like the row inside. -/
theorem arrange_group {tokens row : List Token} (h : arrange tokens = .ok row) :
    arrange (group tokens) = .ok row := by
  rw [arrange_of_run (Yard.run_group h Yard.empty) rfl]
  simp [Yard.empty]

/-- Of two groups with an operator in between, the operator leaves last. -/
theorem arrange_between_groups {first second early late : List Token}
    (hfirst : arrange first = .ok early) (hsecond : arrange second = .ok late) (op : Operator) :
    arrange (group first ++ operator op :: group second) =
      .ok (early ++ late ++ [operator op]) := by
  have hop : Yard.empty.run [operator op] = .ok ([], ⟨[op], []⟩) := Yard.run_singleton rfl
  have hall := Yard.run_append_ok (Yard.run_group hfirst Yard.empty)
    (Yard.run_append_ok hop (Yard.run_group hsecond ⟨[op], []⟩))
  simpa using arrange_of_run hall rfl

/-- **A balanced row has the same value, or fails for the same cause, in parentheses.** -/
theorem compute_group {tokens : List Token} (h : Balanced leftParen rightParen tokens)
    (env : Environment) : compute env (group tokens) = compute env tokens := by
  obtain ⟨row, hrow⟩ := arrange_of_balanced h
  rw [compute_of_arrange hrow, compute_of_arrange (arrange_group hrow)]

/-- **An operator between two groups is applied to their values.** -/
theorem compute_between_groups {env : Environment} {first second : List Token} {v w : Int}
    (hfirst : compute env first = .ok v) (hsecond : compute env second = .ok w) (op : Operator) :
    compute env (group first ++ operator op :: group second) =
      (op.apply v w).mapError .eval := by
  obtain ⟨left, harrange, hleft⟩ := compute_eq_ok_iff.1 hfirst
  obtain ⟨right, harrange', hright⟩ := compute_eq_ok_iff.1 hsecond
  have hrow : arrange (group first ++ operator op :: group second) =
      .ok (Expr.binary op left right).postorder := arrange_between_groups harrange harrange' op
  rw [compute_of_arrange hrow, Expr.evaluate_postorder, Expr.value, hleft, hright]
  rfl

end ReversePolish

namespace Session

/-- An expression with a value has tokens, and it is their value. -/
theorem exists_tokens_of_evaluate {env : Environment} {source : Text} {v : Int}
    (h : evaluate env source = .ok v) :
    ∃ tokens, tokenize source = .ok tokens ∧ ReversePolish.compute env tokens = .ok v := by
  cases hread : tokenize source with
  | error cause =>
      rw [evaluate_of_tokenize_error hread] at h
      cases h
  | ok tokens => exact ⟨tokens, rfl, by rw [← ReversePolish.evaluate_eq_compute hread, h]⟩

/-- A balanced text has the same value, or fails for the same cause, in parentheses. -/
theorem evaluate_group {s : Text} (h : Balanced '(' ')' s) (env : Environment) :
    evaluate env s.group = evaluate env s := by
  cases hread : tokenize s with
  | error cause =>
      rw [evaluate_of_tokenize_error hread, evaluate_of_tokenize_error (tokenize_group_error hread)]
  | ok tokens =>
      have hbalanced : Balanced leftParen rightParen tokens := (balanced_iff_of_tokenize hread).2 h
      rw [ReversePolish.evaluate_eq_compute hread,
        ReversePolish.evaluate_eq_compute (tokenize_group hread),
        ReversePolish.compute_group hbalanced]

/-- **Evaluation composes over texts.**  An operator between two texts in parentheses is applied
to their values, if each text has one, and there is a value unless it divides by zero.  A balanced
text in parentheses has the value of the text, or fails for the same cause. -/
theorem evaluation_composes (env : Environment) :
    (∀ s t v w, evaluate env s = .ok v → evaluate env t = .ok w → ∀ op : Operator,
      evaluate env (s.group ++ op.symbol :: t.group) = (op.apply v w).mapError .eval ∧
        (op = .div ∧ w = 0 →
          evaluate env (s.group ++ op.symbol :: t.group) = .error (.eval .divisionByZero)) ∧
        (¬(op = .div ∧ w = 0) →
          ∃ x, op.apply v w = .ok x ∧ evaluate env (s.group ++ op.symbol :: t.group) = .ok x)) ∧
      ∀ s : Text, Balanced '(' ')' s → evaluate env s.group = evaluate env s := by
  refine ⟨?_, fun s h => evaluate_group h env⟩
  intro s t v w hs ht op
  obtain ⟨first, hfirst, hv⟩ := exists_tokens_of_evaluate hs
  obtain ⟨second, hsecond, hw⟩ := exists_tokens_of_evaluate ht
  have hvalue : evaluate env (s.group ++ op.symbol :: t.group) =
      (op.apply v w).mapError .eval := by
    rw [ReversePolish.evaluate_eq_compute (tokenize_between_groups hfirst hsecond op),
      ReversePolish.compute_between_groups hv hw]
  refine ⟨hvalue, ?_, ?_⟩
  · intro hzero
    obtain ⟨rfl, rfl⟩ := hzero
    rw [hvalue]
    rfl
  · intro hnonzero
    obtain ⟨x, hx⟩ := Operator.apply_ok (fun hop hw => hnonzero ⟨hop, hw⟩) v
    exact ⟨x, hx, by rw [hvalue, hx]; rfl⟩

/-- A text that is no sentence and has a value, in front of one and over a zero, and a balanced
text that fails. -/
theorem evaluation_composes_spare_operator :
    evaluate Environment.empty "(1)2+".toList = .ok 3 ∧
      evaluate Environment.empty "((1)2+)*(-4)".toList = .ok (-12) ∧
      evaluate Environment.empty "((1)2+)/(4-4)".toList = .error (.eval .divisionByZero) ∧
      Balanced '(' ')' "(1)(2)".toList ∧
      evaluate Environment.empty "((1)(2))".toList =
        evaluate Environment.empty "(1)(2)".toList := by
  have hspare : evaluate Environment.empty "(1)2+".toList = .ok 3 := by rfl
  have hnegative : evaluate Environment.empty "-4".toList = .ok (-4) := by rfl
  have hzero : evaluate Environment.empty "4-4".toList = .ok 0 := by rfl
  have hbalanced : Balanced '(' ')' "(1)(2)".toList := by decide
  exact ⟨hspare, ((evaluation_composes _).1 _ _ _ _ hspare hnegative .mul).1,
    ((evaluation_composes _).1 _ _ _ _ hspare hzero .div).2.1 ⟨rfl, rfl⟩, hbalanced,
    (evaluation_composes _).2 _ hbalanced⟩

end Session

end Calculator
