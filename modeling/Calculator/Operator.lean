import Calculator.Text.Basic

/-!
# The four operators

Addition and subtraction share the lower precedence, multiplication and
division the higher one.  Operators of one precedence are grouped from the left.
-/

namespace Calculator

/-- An operator between two operands. -/
inductive Operator where
  | add
  | sub
  | mul
  | div
  deriving DecidableEq

namespace Operator

/-- How tightly an operator binds. -/
def precedence : Operator → Nat
  | add | sub => 1
  | mul | div => 2

/-- The character an operator is written with. -/
def symbol : Operator → Char
  | add => '+'
  | sub => '-'
  | mul => '*'
  | div => '/'

/-- The operator that a character writes, if it writes one. -/
def ofSymbol? : Char → Option Operator
  | '+' => some add
  | '-' => some sub
  | '*' => some mul
  | '/' => some div
  | _ => none

@[simp] theorem ofSymbol?_symbol (op : Operator) : ofSymbol? op.symbol = some op := by
  cases op <;> rfl

/-- The symbol is the one spelling of its operator. -/
theorem ofSymbol?_eq_some_iff {c : Char} {op : Operator} :
    ofSymbol? c = some op ↔ c = op.symbol := by
  constructor
  · intro h
    unfold ofSymbol? at h
    split at h <;> cases h <;> rfl
  · rintro rfl
    exact ofSymbol?_symbol op

end Operator

end Calculator
