import Calculator.Proofs.Groups
import Calculator.Proofs.Stages

/-!
# Rows in the place of names

A name leaves the yard at once and changes nothing in it.  A row **passes**
through the yard if it does the same: a name, a number, and any row in
parentheses that is arranged on its own.  So if every name of a row stands for
a row that passes, what leaves the yard has, in the place of each name, what
leaves during the row that it stands for.

The machine asks for nothing but the value of a name.  If what stands in the
place of each name puts that value on the stack, or fails as the name fails, the
whole row has the same value, or fails as before.  The one failure that tells a
name may tell it by another name.

* `Yard.passes_identifier`, `Yard.passes_group` — what passes through a yard;
* `Yard.run_replace`, `arrange_replace` — rows in the place of names, in the yard;
* `exec_replace`, `evaluate_replace` — and in the machine;
* `compute_replace`, `compute_congr` — and in both, one after the other.
-/

namespace Calculator

open Token

/-- A token, or the row that stands for it if it is a name. -/
def Token.replace (meaning : Text → List Token) : Token → List Token
  | identifier x => meaning x
  | t => [t]

theorem Token.replace_of_ne_identifier {t : Token} (h : ∀ x, t ≠ identifier x)
    (meaning : Text → List Token) : t.replace meaning = [t] := by
  cases t with
  | identifier x => exact absurd rfl (h x)
  | _ => rfl

/-- A failure to compute, with another name in the place of an unbound one. -/
def EvalError.rename (naming : Text → Text) : EvalError → EvalError
  | unknownVariable x => unknownVariable (naming x)
  | cause => cause

@[simp] theorem EvalError.rename_id : EvalError.rename id = id := by
  funext cause
  cases cause <;> rfl

namespace ReversePolish

namespace Yard

/-! ## In the yard -/

/-- A row leaves every yard as it was, and what leaves during it is always the same. -/
def Passes (row out : List Token) : Prop :=
  ∀ yard : Yard, yard.run row = .ok (out, yard)

theorem passes_identifier (x : Text) : Passes [identifier x] [identifier x] :=
  fun _ => run_singleton rfl

/-- A row in parentheses passes if it is arranged on its own. -/
theorem passes_group {tokens row : List Token} (h : arrange tokens = .ok row) :
    Passes (group tokens) row :=
  run_group h

theorem flatMap_replace_operators (meaning : Text → List Token) (ops : List Operator) :
    (ops.map operator).flatMap (replace meaning) = ops.map operator := by
  induction ops with
  | nil => rfl
  | cons op ops ih => rw [List.map_cons, List.flatMap_cons, ih]; rfl

/-- **One token.**  What leaves when it is taken in, with rows in the place of names, leaves when
the row that stands for it is taken in. -/
theorem run_replace_token {t : Token} {meaning out : Text → List Token}
    (h : ∀ x, t = identifier x → Passes (meaning x) (out x)) (yard : Yard) :
    yard.run (t.replace meaning) =
      (yard.step t).map fun left => (left.1.flatMap (replace out), left.2) := by
  cases t with
  | number n => exact run_singleton rfl
  | identifier x =>
      rw [replace, h x rfl yard]
      simp [step, Except.map, replace]
  | operator op =>
      have hstep : yard.step (operator op) =
          .ok ((yard.waiting.takeWhile (yieldsTo op)).map operator,
            { yard with waiting := op :: yard.waiting.dropWhile (yieldsTo op) }) := rfl
      rw [replace_of_ne_identifier (by simp), run_singleton hstep, hstep, Except.map,
        flatMap_replace_operators]
  | leftParen => exact run_singleton rfl
  | rightParen =>
      cases henclosing : yard.enclosing with
      | nil => simp [replace, run_cons, step, henclosing, bind, Except.bind, Except.map]
      | cons outer rest =>
          have hstep : yard.step rightParen = .ok (yard.waiting.map operator, ⟨outer, rest⟩) := by
            simp [step, henclosing]
          rw [replace_of_ne_identifier (by simp), run_singleton hstep, hstep, Except.map,
            flatMap_replace_operators]

/-- **A row of tokens**, with rows in the place of names. -/
theorem run_replace {tokens : List Token} {meaning out : Text → List Token}
    (h : ∀ x, identifier x ∈ tokens → Passes (meaning x) (out x)) (yard : Yard) :
    yard.run (tokens.flatMap (replace meaning)) =
      (yard.run tokens).map fun left => (left.1.flatMap (replace out), left.2) := by
  induction tokens generalizing yard with
  | nil => rfl
  | cons t tokens ih =>
      have hfirst := run_replace_token (t := t)
        (fun x hx => h x (by rw [hx]; exact List.mem_cons_self)) yard
      have hrest := ih fun x hx => h x (List.mem_cons_of_mem t hx)
      rw [List.flatMap_cons, run_append, hfirst, run_cons]
      cases yard.step t with
      | error cause => rfl
      | ok left =>
          simp only [Except.map, bind, Except.bind, hrest]
          cases left.2.run tokens with
          | error cause => rfl
          | ok last => simp [pure, Except.pure]

theorem run_error {yard : Yard} {tokens : List Token} {cause : ParseError}
    (h : yard.run tokens = .error cause) : cause = .unbalancedParentheses := by
  induction tokens generalizing yard with
  | nil => cases h
  | cons t tokens ih =>
      rw [run_cons] at h
      obtain hstep | ⟨left, -, hrest⟩ := Except.bind_eq_error_iff.1 h
      · exact (step_error hstep).2.2
      · obtain hrun | ⟨last, -, hdone⟩ := Except.bind_eq_error_iff.1 hrest
        · exact ih hrun
        · cases hdone

end Yard

/-- A row is refused only for its parentheses. -/
theorem arrange_error {tokens : List Token} {cause : ParseError}
    (h : arrange tokens = .error cause) : cause = .unbalancedParentheses := by
  obtain hrun | ⟨left, -, hrest⟩ := Except.bind_eq_error_iff.1 h
  · exact Yard.run_error hrun
  · obtain hdrain | ⟨late, -, hdone⟩ := Except.bind_eq_error_iff.1 hrest
    · unfold Yard.drain at hdrain
      split at hdrain
      · cases hdrain
      · cases hdrain
        rfl
    · cases hdone

/-- A row that is not arranged is refused, and the cause is always the same. -/
theorem arrange_eq_error_iff {tokens : List Token} {cause : ParseError} :
    arrange tokens = .error cause ↔
      cause = .unbalancedParentheses ∧ ¬∃ row, arrange tokens = .ok row := by
  constructor
  · intro h
    refine ⟨arrange_error h, fun hrow => ?_⟩
    obtain ⟨row, hrow⟩ := hrow
    rw [h] at hrow
    cases hrow
  · intro h
    obtain ⟨rfl, hnone⟩ := h
    cases hrow : arrange tokens with
    | ok row => exact absurd ⟨row, hrow⟩ hnone
    | error other => rw [arrange_error hrow]

/-- **Rows in the place of names are arranged like the names.** -/
theorem arrange_replace {tokens : List Token} {meaning out : Text → List Token}
    (h : ∀ x, identifier x ∈ tokens → Yard.Passes (meaning x) (out x)) :
    arrange (tokens.flatMap (replace meaning)) =
      (arrange tokens).map fun row => row.flatMap (replace out) := by
  rw [arrange, Yard.run_replace h, arrange]
  cases Yard.empty.run tokens with
  | error cause => rfl
  | ok left =>
      simp only [Except.map, bind, Except.bind, Yard.drain]
      cases left.2.enclosing with
      | nil => simp [pure, Except.pure, Yard.flatMap_replace_operators]
      | cons outer rest => rfl

/-! ## In the machine -/

/-- A token that is no name does the same in every environment, and tells no name. -/
theorem execToken_rename {t : Token} (h : ∀ x, t ≠ identifier x) (env env' : Environment)
    (naming : Text → Text) (stack : List Int) :
    execToken env' stack t = (execToken env stack t).mapError (EvalError.rename naming) := by
  cases t with
  | number n => rfl
  | identifier x => exact absurd rfl (h x)
  | operator op =>
      match stack with
      | [] | [_] => rfl
      | right :: left :: rest =>
          simp only [execToken]
          cases happly : op.apply left right with
          | ok v => rfl
          | error cause =>
              obtain ⟨-, -, rfl⟩ := Operator.apply_error_iff.1 happly
              rfl
  | leftParen | rightParen =>
      match stack with
      | [] | [_] | _ :: _ :: _ => rfl

theorem exec_singleton (env : Environment) (stack : List Int) (t : Token) :
    exec env stack [t] = execToken env stack t := by
  rw [exec_cons]
  cases execToken env stack t <;> rfl

/-- **Rows in the place of names are executed like the names**, if each of them is. -/
theorem exec_replace {env env' : Environment} {row : List Token} {out : Text → List Token}
    {naming : Text → Text}
    (h : ∀ x, identifier x ∈ row → ∀ stack, exec env' stack (out x) =
      (execToken env stack (identifier x)).mapError (EvalError.rename naming)) (stack : List Int) :
    exec env' stack (row.flatMap (replace out)) =
      (exec env stack row).mapError (EvalError.rename naming) := by
  induction row generalizing stack with
  | nil => rfl
  | cons t row ih =>
      have hfirst : exec env' stack (t.replace out) =
          (execToken env stack t).mapError (EvalError.rename naming) := by
        by_cases hname : ∀ x, t ≠ identifier x
        · rw [replace_of_ne_identifier hname, exec_singleton,
            execToken_rename hname env env' naming]
        · obtain ⟨x, rfl⟩ : ∃ x, t = identifier x := by simpa using hname
          exact h x List.mem_cons_self stack
      have hrest := ih fun x hx => h x (List.mem_cons_of_mem t hx)
      rw [List.flatMap_cons, exec_append, hfirst, exec_cons, Except.mapError_bind]
      exact congrArg _ (funext hrest)

theorem evaluate_replace {env env' : Environment} {row : List Token} {out : Text → List Token}
    {naming : Text → Text}
    (h : ∀ x, identifier x ∈ row → ∀ stack, exec env' stack (out x) =
      (execToken env stack (identifier x)).mapError (EvalError.rename naming)) :
    evaluate env' (row.flatMap (replace out)) =
      (evaluate env row).mapError (EvalError.rename naming) := by
  have hsole : ∀ stack, soleValue stack = (soleValue stack).mapError (EvalError.rename naming) := by
    intro stack
    cases hvalue : soleValue stack with
    | ok v => rfl
    | error cause =>
        obtain ⟨-, rfl⟩ := soleValue_error_iff.1 hvalue
        rfl
  rw [evaluate, exec_replace h, evaluate, Except.mapError_bind]
  exact congrArg _ (funext hsole)

/-- **Rows in the place of names.**  If each of them passes through the yard, and what leaves then
does what the name does, the whole row has the value of the row with the names.  Where that fails
the other fails too, for the same cause up to the name that is told. -/
theorem compute_replace {env env' : Environment} {tokens : List Token}
    {meaning out : Text → List Token} {naming : Text → Text} {wording : Error → Error}
    (hpass : ∀ x, identifier x ∈ tokens → Yard.Passes (meaning x) (out x))
    (hexec : ∀ x, identifier x ∈ tokens → ∀ stack, exec env' stack (out x) =
      (execToken env stack (identifier x)).mapError (EvalError.rename naming))
    (hparse : wording (.parse .unbalancedParentheses) = .parse .unbalancedParentheses)
    (heval : ∀ cause, wording (.eval cause) = .eval (cause.rename naming)) :
    compute env' (tokens.flatMap (replace meaning)) = (compute env tokens).mapError wording := by
  rw [compute, arrange_replace hpass]
  cases harrange : arrange tokens with
  | error cause =>
      obtain rfl := arrange_error harrange
      rw [compute, harrange]
      exact congrArg Except.error hparse.symm
  | ok row =>
      have hrow : ∀ x, identifier x ∈ row → identifier x ∈ tokens := fun x hx =>
        (List.mem_filter.1 ((arrange_perm harrange).mem_iff.1 hx)).1
      rw [compute_of_arrange harrange]
      change (evaluate env' (row.flatMap (replace out))).mapError Error.eval = _
      rw [evaluate_replace fun x hx => hexec x (hrow x hx)]
      cases evaluate env row with
      | ok v => rfl
      | error cause => exact congrArg Except.error (heval cause).symm

theorem flatMap_replace_identifier (tokens : List Token) :
    tokens.flatMap (replace fun x => [identifier x]) = tokens := by
  have hone : ∀ t : Token, t.replace (fun x => [identifier x]) = [t] := by
    intro t
    cases t <;> rfl
  rw [funext hone, List.flatMap_singleton']

/-- What is known of the names of a row decides its value. -/
theorem compute_congr {env env' : Environment} {tokens : List Token}
    (h : ∀ x, identifier x ∈ tokens → env'.query x = env.query x) :
    compute env' tokens = compute env tokens := by
  have hexec : ∀ x, identifier x ∈ tokens → ∀ stack, exec env' stack [identifier x] =
      (execToken env stack (identifier x)).mapError (EvalError.rename id) := by
    intro x hx stack
    rw [EvalError.rename_id, Except.mapError_id, exec_singleton, execToken, execToken, h x hx]
  have hvalue : compute env' (tokens.flatMap (replace fun x => [identifier x])) =
      (compute env tokens).mapError id :=
    compute_replace (fun x _ => Yard.passes_identifier x) hexec rfl
      fun cause => by rw [EvalError.rename_id]; rfl
  rwa [flatMap_replace_identifier, Except.mapError_id] at hvalue

end ReversePolish

end Calculator
