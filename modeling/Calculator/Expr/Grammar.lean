import Calculator.Expr

/-!
# The grammar of expressions

A sum is a product or a longer sum, a product is a factor or a longer product,
and a factor is a number, a name or a sum in parentheses.  A row of tokens that
the grammar derives stands for a tree: the operators of one level are grouped
from the left, those of the higher level first, and parentheses leave no trace.

* `Derives.relax` — what is derived at a tighter level is derived at every
  looser one;
* `Derives.ne_nil` — no level derives the empty row.
-/

namespace Calculator

/-- How tightly the operators outside of parentheses bind in a row, at least. -/
inductive Level where
  | sum
  | product
  | factor
  deriving DecidableEq

/-- The level of a row whose last operator outside of parentheses this is. -/
def Operator.level : Operator → Level
  | add | sub => .sum
  | mul | div => .product

/-- The level of the right operand at a level: the next tighter one. -/
def Level.tighter : Level → Level
  | sum => product
  | product | factor => factor

/-- A row of tokens stands for a tree, at a level of the grammar. -/
inductive Derives : Level → List Token → Expr → Prop
  | number (n : Int) : Derives .factor [.number n] (.number n)
  | identifier (name : Text) : Derives .factor [.identifier name] (.identifier name)
  | group {tokens : List Token} {e : Expr} (inner : Derives .sum tokens e) :
      Derives .factor (.leftParen :: tokens ++ [.rightParen]) e
  | single {level : Level} {tokens : List Token} {e : Expr}
      (only : Derives level.tighter tokens e) : Derives level tokens e
  | chain {op : Operator} {first second : List Token} {left right : Expr}
      (before : Derives op.level first left) (after : Derives op.level.tighter second right) :
      Derives op.level (first ++ .operator op :: second) (.binary op left right)

/-- A row of tokens is an expression when the grammar derives it. -/
def IsSentence (tokens : List Token) : Prop :=
  ∃ e, Derives .sum tokens e

namespace Derives

/-- No level derives the empty row. -/
theorem ne_nil {level : Level} {tokens : List Token} {e : Expr} (h : Derives level tokens e) :
    tokens ≠ [] := by
  induction h with
  | number | identifier | group => simp
  | single _ ih => exact ih
  | chain => simp

/-- A factor is derived at every level. -/
theorem relax {tokens : List Token} {e : Expr} (h : Derives .factor tokens e) (level : Level) :
    Derives level tokens e := by
  cases level with
  | factor => exact h
  | product => exact single h
  | sum => exact single (show Derives .product tokens e from single h)

end Derives

end Calculator
