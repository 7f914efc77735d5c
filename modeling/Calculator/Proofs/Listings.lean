import Calculator.Expr
import Mathlib.Data.List.Forall2

/-!
# What the stack machine can compute

Every value on the machine's stack is the value of a tree, and the listings of
these trees, the lowest one first, are exactly what was executed so far.  So a
row has a value only if it is the listing of a tree, and the value is the tree's.

* `execToken_ok` — the three ways in which one token is executed;
* `execToken_trees` — one token keeps the trees on the stack in step with the row;
* `exec_trees` — and so does a whole row;
* `evaluate_eq_ok_iff` — the rows with a value are the listings of trees with one.
-/

namespace Calculator

namespace Expr

/-- The names at the leaves of a tree. -/
def names : Expr → List Text
  | number _ => []
  | identifier x => [x]
  | binary _ left right => left.names ++ right.names

/-- A tree fails for one of its names, or for a division by zero. -/
theorem value_error {env : Environment} {e : Expr} {cause : EvalError}
    (h : e.value env = .error cause) :
    (∃ x ∈ e.names, cause = .unknownVariable x) ∨ cause = .divisionByZero := by
  induction e with
  | number n => cases h
  | identifier x =>
      have hcause := (Environment.query_eq_error_iff.1 h).2
      exact Or.inl ⟨x, List.mem_singleton_self x, hcause⟩
  | binary op left right ihl ihr =>
      cases hl : left.value env with
      | error el =>
          have heq : el = cause := by simpa [value, hl, bind, Except.bind] using h
          rcases ihl (heq ▸ hl) with ⟨x, hx, hcause⟩ | hzero
          · exact Or.inl ⟨x, List.mem_append_left _ hx, hcause⟩
          · exact Or.inr hzero
      | ok l =>
          cases hr : right.value env with
          | error er =>
              have heq : er = cause := by simpa [value, hl, hr, bind, Except.bind] using h
              rcases ihr (heq ▸ hr) with ⟨x, hx, hcause⟩ | hzero
              · exact Or.inl ⟨x, List.mem_append_right _ hx, hcause⟩
              · exact Or.inr hzero
          | ok r =>
              have happly : op.apply l r = .error cause := by
                simpa [value, hl, hr, bind, Except.bind] using h
              exact Or.inr (Operator.apply_error_iff.1 happly).2.2

/-- The listings of trees, the one at the end of the list first. -/
def listings (trees : List Expr) : List Token :=
  trees.reverse.flatMap postorder

theorem listings_cons (e : Expr) (trees : List Expr) :
    listings (e :: trees) = listings trees ++ e.postorder := by
  simp [listings]

/-- The stack holds the values of the trees, one by one. -/
def Valued (env : Environment) (trees : List Expr) (stack : List Int) : Prop :=
  List.Forall₂ (fun e value => e.value env = .ok value) trees stack

end Expr

namespace ReversePolish

open Calculator.Expr

/-- One token is executed in three ways: it is a number, a bound name, or an operator that
finds two operands and has a value on them. -/
theorem execToken_ok {env : Environment} {stack next : List Int} {token : Token}
    (h : execToken env stack token = .ok next) :
    (∃ n, token = .number n ∧ next = n :: stack) ∨
      (∃ x v, token = .identifier x ∧ env.query x = .ok v ∧ next = v :: stack) ∨
      ∃ op l r rest v, token = .operator op ∧ stack = r :: l :: rest ∧ op.apply l r = .ok v ∧
        next = v :: rest := by
  cases token with
  | number n =>
      refine Or.inl ⟨n, rfl, ?_⟩
      exact (Except.ok.inj h).symm
  | identifier x =>
      cases hx : env.query x with
      | error e => simp [execToken, hx, bind, Except.bind] at h
      | ok v =>
          refine Or.inr (Or.inl ⟨x, v, rfl, hx, ?_⟩)
          simpa [execToken, hx, bind, Except.bind, pure, Except.pure, eq_comm] using h
  | operator op =>
      cases stack with
      | nil => cases h
      | cons r stack =>
          cases stack with
          | nil => cases h
          | cons l rest =>
              cases hv : op.apply l r with
              | error e => simp [execToken, hv, bind, Except.bind] at h
              | ok v =>
                  refine Or.inr (Or.inr ⟨op, l, r, rest, v, rfl, rfl, hv, ?_⟩)
                  simpa [execToken, hv, bind, Except.bind, pure, Except.pure, eq_comm] using h
  | leftParen =>
      cases stack with
      | nil => cases h
      | cons r rest => cases rest <;> cases h
  | rightParen =>
      cases stack with
      | nil => cases h
      | cons r rest => cases rest <;> cases h

/-- **One token.**  If the stack holds the values of trees, then after one more token it
holds the values of trees whose listings are one token longer. -/
theorem execToken_trees {env : Environment} {stack next : List Int} {trees : List Expr}
    {token : Token} (hstack : Valued env trees stack)
    (h : execToken env stack token = .ok next) :
    ∃ after, Valued env after next ∧ listings trees ++ [token] = listings after := by
  rcases execToken_ok h with ⟨n, rfl, rfl⟩ | ⟨x, v, rfl, hx, rfl⟩ |
    ⟨op, l, r, rest, v, rfl, rfl, hv, rfl⟩
  · exact ⟨.number n :: trees, .cons rfl hstack, by rw [listings_cons]; rfl⟩
  · exact ⟨.identifier x :: trees, .cons hx hstack, by rw [listings_cons]; rfl⟩
  · obtain ⟨right, others, hright, hothers, rfl⟩ := List.forall₂_cons_right_iff.1 hstack
    obtain ⟨left, below, hleft, hbelow, rfl⟩ := List.forall₂_cons_right_iff.1 hothers
    have hvalue : (Expr.binary op left right).value env = .ok v := by
      simp [value, hleft, hright, hv, bind, Except.bind]
    refine ⟨.binary op left right :: below, .cons hvalue hbelow, ?_⟩
    simp [listings_cons, postorder]

/-- **A whole row.**  What is executed on top of the listings of trees ends in the listings
of the trees whose values are left. -/
theorem exec_trees {env : Environment} {stack last : List Int} {trees : List Expr}
    {row : List Token} (hstack : Valued env trees stack) (h : exec env stack row = .ok last) :
    ∃ after, Valued env after last ∧ listings trees ++ row = listings after := by
  induction row generalizing stack trees with
  | nil =>
      have hlast : last = stack := (Except.ok.inj h).symm
      exact ⟨trees, hlast ▸ hstack, by simp⟩
  | cons token row ih =>
      rw [exec_cons] at h
      cases hnext : execToken env stack token with
      | error e => rw [hnext] at h; cases h
      | ok next =>
          rw [hnext] at h
          obtain ⟨between, hbetween, hlisting⟩ := execToken_trees hstack hnext
          obtain ⟨after, hafter, hrow⟩ := ih hbetween h
          refine ⟨after, hafter, ?_⟩
          rw [← hrow, ← hlisting]
          simp

theorem soleValue_eq_ok {stack : List Int} {v : Int} (h : soleValue stack = .ok v) :
    stack = [v] := by
  cases stack with
  | nil => cases h
  | cons w rest =>
      cases rest with
      | nil => exact congrArg (fun x => [x]) (Except.ok.inj h)
      | cons _ _ => cases h

/-- **The rows with a value are the listings of trees with that value.** -/
theorem evaluate_eq_ok_iff {env : Environment} {row : List Token} {v : Int} :
    evaluate env row = .ok v ↔ ∃ e : Expr, row = e.postorder ∧ e.value env = .ok v := by
  constructor
  · intro h
    cases hexec : exec env [] row with
    | error e => simp [evaluate, hexec, bind, Except.bind] at h
    | ok stack =>
        have hsole : soleValue stack = .ok v := by
          simpa [evaluate, hexec, bind, Except.bind] using h
        have hstack : stack = [v] := soleValue_eq_ok hsole
        have hempty : Valued env [] [] := List.Forall₂.nil
        obtain ⟨trees, htrees, hrow⟩ := exec_trees hempty hexec
        rw [hstack] at htrees
        obtain ⟨e, none, hvalue, hnone, rfl⟩ := List.forall₂_cons_right_iff.1 htrees
        have hsole : none = [] := List.forall₂_nil_right_iff.1 hnone
        refine ⟨e, ?_, hvalue⟩
        simpa [hsole, listings] using hrow
  · intro h
    obtain ⟨e, rfl, hvalue⟩ := h
    rw [evaluate_postorder, hvalue]

end ReversePolish

end Calculator
