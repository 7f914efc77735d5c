import Calculator.Arithmetic
import Calculator.Environment

/-!
# The stack machine

A row of tokens in reverse Polish order is computed on a stack of integers.
A number is put on the stack, a name puts its value there, and an operator
takes its right operand off the stack, then its left one, and puts back their
result.  At the end the stack has to hold the one value of the whole row.

Any row is accepted for computing, also one that no expression stands behind:
the machine reports the first token that it cannot execute.

* `exec_append` — a row may be executed in parts.
-/

namespace Calculator.ReversePolish

/-- Executes one token on a stack, whose top is at the head. -/
def execToken (env : Environment) : List Int → Token → Except EvalError (List Int)
  | stack, .number value => .ok (value :: stack)
  | stack, .identifier name => do
    let value ← env.query name
    return value :: stack
  | right :: left :: stack, .operator op => do
    let value ← op.apply left right
    return value :: stack
  | _, .operator op => .error (.missingOperand op)
  | _, paren => .error (.unexpectedToken paren)

/-- Executes a row of tokens on a stack. -/
def exec (env : Environment) (stack : List Int) (tokens : List Token) :
    Except EvalError (List Int) :=
  tokens.foldlM (execToken env) stack

/-- The value that is left at the end, if it is the only one. -/
def soleValue : List Int → Except EvalError Int
  | [value] => .ok value
  | stack => .error (.leftoverOperands stack.length)

/-- The value of a row of tokens. -/
def evaluate (env : Environment) (tokens : List Token) : Except EvalError Int := do
  let stack ← exec env [] tokens
  soleValue stack

@[simp] theorem exec_nil (env : Environment) (stack : List Int) : exec env stack [] = .ok stack :=
  rfl

@[simp] theorem exec_cons (env : Environment) (stack : List Int) (token : Token)
    (tokens : List Token) :
    exec env stack (token :: tokens) =
      execToken env stack token >>= fun next => exec env next tokens := by
  simp [exec]

/-- A row may be executed in two parts, one after the other. -/
theorem exec_append (env : Environment) (stack : List Int) (first second : List Token) :
    exec env stack (first ++ second) =
      exec env stack first >>= fun between => exec env between second := by
  simp [exec]

/-- One value at the end is the answer, any other number of them is told. -/
theorem soleValue_error_iff {stack : List Int} {e : EvalError} :
    soleValue stack = .error e ↔ stack.length ≠ 1 ∧ e = .leftoverOperands stack.length := by
  match stack with
  | [] => simp [soleValue, eq_comm]
  | [_] => simp [soleValue]
  | _ :: _ :: _ => simp [soleValue, eq_comm]

example : evaluate Environment.empty [.number 7, .number 2, .operator .sub] = .ok 5 := rfl

example : evaluate Environment.empty [.number 7, .operator .div] =
    .error (.missingOperand .div) := rfl

end Calculator.ReversePolish
