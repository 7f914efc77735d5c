import Calculator.ReversePolish.Machine

/-!
# Expression trees

What an expression means is told by its tree: numbers and names at the leaves,
operators at the inner nodes.  The tree is computed from the left to the right,
and an operator after both of its operands.  Listed in this very order, the
tree is a row in reverse Polish order, and the stack machine computes it
without knowing of the tree.

* `exec_postorder` — on any stack, and with any row after it, the listing of a
  tree does one thing: it puts the tree's value on the stack, or fails as the
  tree fails;
* `evaluate_postorder` — so the listing alone has the value of the tree.
-/

namespace Calculator

/-- An expression, free of parentheses and precedence. -/
inductive Expr where
  | number (value : Int)
  | identifier (name : Text)
  | binary (op : Operator) (left right : Expr)
  deriving DecidableEq

namespace Expr

/-- The value of a tree: the left operand first, then the right one, then the operator. -/
def value (env : Environment) : Expr → Except EvalError Int
  | number n => .ok n
  | identifier name => env.query name
  | binary op left right => do
    let l ← left.value env
    let r ← right.value env
    op.apply l r

/-- The tokens of a tree, every operator after its operands. -/
def postorder : Expr → List Token
  | number n => [.number n]
  | identifier name => [.identifier name]
  | binary op left right => left.postorder ++ right.postorder ++ [.operator op]

/-- The listing of a tree, and then any row, first puts the value of the tree on the stack. -/
theorem exec_postorder (env : Environment) (e : Expr) (stack : List Int) (row : List Token) :
    ReversePolish.exec env stack (e.postorder ++ row) =
      e.value env >>= fun value => ReversePolish.exec env (value :: stack) row := by
  induction e generalizing stack row with
  | number n => rfl
  | identifier name =>
    simp only [postorder, List.singleton_append, ReversePolish.exec_cons, value,
      ReversePolish.execToken, bind, Except.bind, pure, Except.pure]
    cases env.query name <;> rfl
  | binary op left right ihl ihr =>
    simp only [postorder, List.append_assoc, ihl, ihr, List.singleton_append, value,
      ReversePolish.exec_cons, ReversePolish.execToken, bind, Except.bind, pure, Except.pure]
    cases left.value env with
    | error e => rfl
    | ok l =>
      cases right.value env with
      | error e => rfl
      | ok r =>
        simp only
        cases op.apply l r <;> rfl

/-- The listing of a tree has the value of the tree. -/
theorem evaluate_postorder (env : Environment) (e : Expr) :
    ReversePolish.evaluate env e.postorder = e.value env := by
  have listing := exec_postorder env e [] []
  rw [List.append_nil] at listing
  rw [ReversePolish.evaluate, listing]
  cases e.value env <;> rfl

end Expr

end Calculator
