import Calculator.Error

/-!
# Reverse Polish order

In reverse Polish order every operator stands after its two operands, and no
parenthesis is needed.  A **yard** brings a row of tokens into this order: an
operand passes through at once, while an operator waits until one comes that
binds no tighter, or until its group is closed.

The yard keeps the waiting operators group by group.  Each list has the
operator that came last in front, so it is the order in which they leave.

* `run_append` — a row of tokens may be fed to the yard in parts;
* `step_rightParen`, `step_error` — what closing a group does, and the one way in
  which a token is refused.

The one complaint of the yard is about parentheses.  Whether every operator has
its operands is found out when the values are computed.
-/

namespace Calculator.ReversePolish

/-- The operators that wait for their right operand. -/
structure Yard where
  /-- Those of the innermost open group, the latest one first. -/
  waiting : List Operator
  /-- Those of the groups around it, from the inside out. -/
  enclosing : List (List Operator)
  deriving DecidableEq

/-- The operators `top` that leave before `op` is taken in: those that bind at
least as tightly. -/
def yieldsTo (op top : Operator) : Bool :=
  op.precedence ≤ top.precedence

namespace Yard

/-- A yard in which nothing waits and no group is open. -/
def empty : Yard := ⟨[], []⟩

/-- The number of groups that are open. -/
def depth (yard : Yard) : Nat :=
  yard.enclosing.length

/-- Takes in one token; the result tells what leaves, in order, and the yard
after it. -/
def step (yard : Yard) : Token → Except ParseError (List Token × Yard)
  | .number value => .ok ([.number value], yard)
  | .identifier name => .ok ([.identifier name], yard)
  | .operator op =>
    .ok ((yard.waiting.takeWhile (yieldsTo op)).map .operator,
      { yard with waiting := op :: yard.waiting.dropWhile (yieldsTo op) })
  | .leftParen => .ok ([], ⟨[], yard.waiting :: yard.enclosing⟩)
  | .rightParen =>
    match yard.enclosing with
    | [] => .error .unbalancedParentheses
    | outer :: rest => .ok (yard.waiting.map .operator, ⟨outer, rest⟩)

/-- Takes in a row of tokens. -/
def run (yard : Yard) : List Token → Except ParseError (List Token × Yard)
  | [] => .ok ([], yard)
  | token :: tokens => do
    let (leaving, next) ← yard.step token
    let (later, last) ← next.run tokens
    return (leaving ++ later, last)

/-- Empties the yard at the end of the row, when no group may be open. -/
def drain (yard : Yard) : Except ParseError (List Token) :=
  match yard.enclosing with
  | [] => .ok (yard.waiting.map .operator)
  | _ :: _ => .error .unbalancedParentheses

@[simp] theorem run_nil (yard : Yard) : yard.run [] = .ok ([], yard) := rfl

theorem run_cons (yard : Yard) (token : Token) (tokens : List Token) :
    yard.run (token :: tokens) = do
      let (leaving, next) ← yard.step token
      let (later, last) ← next.run tokens
      return (leaving ++ later, last) := rfl

/-- A row may be fed to the yard in two parts, one after the other. -/
theorem run_append (yard : Yard) (first second : List Token) :
    yard.run (first ++ second) = do
      let (early, between) ← yard.run first
      let (later, last) ← between.run second
      return (early ++ later, last) := by
  induction first generalizing yard with
  | nil =>
    simp only [List.nil_append, run_nil, bind, Except.bind, pure, Except.pure]
    cases yard.run second <;> rfl
  | cons token first ih =>
    simp only [List.cons_append, run_cons, bind, Except.bind, pure, Except.pure] at ih ⊢
    cases hstep : yard.step token with
    | error e => rfl
    | ok result =>
      simp only [ih]
      cases result.2.run first with
      | error e => rfl
      | ok between =>
        simp only
        cases between.2.run second with
        | error e => rfl
        | ok last => simp

/-- Closing a group makes all of its operators leave, and the group around it is the innermost one
then. -/
theorem step_rightParen {yard next : Yard} {leaving : List Token}
    (h : yard.step .rightParen = .ok (leaving, next)) :
    yard.enclosing = next.waiting :: next.enclosing ∧ leaving = yard.waiting.map .operator := by
  rw [step] at h
  split at h
  · cases h
  · next outer rest houter =>
      cases h
      exact ⟨houter, rfl⟩

/-- A yard refuses a token only for its parentheses. -/
theorem step_error {yard : Yard} {token : Token} {e : ParseError} (h : yard.step token = .error e) :
    token = .rightParen ∧ yard.enclosing = [] ∧ e = .unbalancedParentheses := by
  cases token with
  | rightParen =>
    simp only [step] at h
    split at h
    · next hnone => cases h; exact ⟨rfl, hnone, rfl⟩
    · cases h
  | _ => cases h

end Yard

/-- The tokens of an expression in reverse Polish order. -/
def arrange (tokens : List Token) : Except ParseError (List Token) := do
  let (early, yard) ← Yard.empty.run tokens
  let late ← yard.drain
  return early ++ late

example : arrange [.number 1, .operator .sub, .number 2, .operator .mul, .number 3,
      .operator .add, .number 4] =
    .ok [.number 1, .number 2, .number 3, .operator .mul, .operator .sub, .number 4,
      .operator .add] := rfl

example : arrange [.leftParen, .number 1] = .error .unbalancedParentheses := rfl

end Calculator.ReversePolish
