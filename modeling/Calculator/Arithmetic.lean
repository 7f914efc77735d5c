import Calculator.Error

/-!
# Arithmetic

Integers of any size.  A quotient is cut off toward zero, so it has the sign
that the signs of its two operands call for; by zero nothing is divided.

* `apply_error_iff` — the one way in which an operator fails;
* `apply_ok` — any operator on any operands has a value otherwise.
-/

namespace Calculator.Operator

/-- The value of an operator on its left and its right operand. -/
def apply : Operator → Int → Int → Except EvalError Int
  | add, left, right => .ok (left + right)
  | sub, left, right => .ok (left - right)
  | mul, left, right => .ok (left * right)
  | div, left, right =>
    if right = 0 then .error .divisionByZero else .ok (left.tdiv right)

/-- Only a division by zero fails. -/
theorem apply_ok {op : Operator} {right : Int} (h : op = div → right ≠ 0) (left : Int) :
    ∃ value, op.apply left right = .ok value := by
  cases op with
  | div => exact ⟨left.tdiv right, if_neg (h rfl)⟩
  | _ => exact ⟨_, rfl⟩

/-- An operator fails with nothing but a division by zero. -/
theorem apply_error_iff {op : Operator} {left right : Int} {e : EvalError} :
    op.apply left right = .error e ↔ op = div ∧ right = 0 ∧ e = .divisionByZero := by
  cases op <;> simp [apply]
  split <;> simp_all [eq_comm]

example : div.apply (-7) 2 = .ok (-3) := rfl

end Calculator.Operator
