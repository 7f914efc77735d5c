import Calculator.Proofs.Arrangement
import Calculator.Proofs.Stages

/-!
# What a row of tokens comes to

A **block** is the listing of a tree that has a value.  What the machine has
executed so far is a row of blocks, and its stack holds their values, the last
one on top.  A row of tokens can be told apart into trees in one way only, since
the trees grow back when the row is read as the machine reads it (`Expr.grow`).

So the machine stops at the first token with a **fault**: behind the blocks
before it, a name that is not bound, an operator without two blocks for its
operands, a division by a block that is worth zero, or a parenthesis.  A row
without such a token is a row of blocks, and has a value if it is one block.

* `grow_listing`, `flatMap_postorder_injective` — trees are told from their listings;
* `execToken_eq_error_iff`, `exec_eq_error_iff` — what stops the machine, at one token
  and in a row;
* `exec_eq_ok_iff` — the rows that do not stop it are the rows of blocks;
* `evaluate_eq_error_iff` — all that can be wrong with a row;
* `Session.execute_eval_error` — and with a line that was read.
-/

namespace Calculator

namespace Expr

/-! ## Trees grown from a row -/

/-- The trees after one more token, the last one first: an operator joins the last two. -/
def graft : List Expr → Token → List Expr
  | trees, .number n => number n :: trees
  | trees, .identifier x => identifier x :: trees
  | right :: left :: trees, .operator op => binary op left right :: trees
  | trees, _ => trees

/-- The trees after a row of tokens. -/
def grow (trees : List Expr) (row : List Token) : List Expr :=
  row.foldl graft trees

/-- **The listing of a tree grows the tree**, above any others and in front of any row. -/
theorem grow_listing (e : Expr) (trees : List Expr) (row : List Token) :
    grow trees (e.postorder ++ row) = grow (e :: trees) row := by
  induction e generalizing trees row with
  | number n => rfl
  | identifier x => rfl
  | binary op left right ihl ihr =>
      rw [postorder, List.append_assoc, List.append_assoc, ihl, ihr]
      rfl

theorem grow_flatMap_postorder (trees others : List Expr) :
    grow others (trees.flatMap postorder) = trees.reverse ++ others := by
  induction trees generalizing others with
  | nil => rfl
  | cons e trees ih =>
      rw [List.flatMap_cons, grow_listing, ih]
      simp

/-- **A row is told apart into trees in one way only.** -/
theorem flatMap_postorder_injective {trees others : List Expr}
    (h : trees.flatMap postorder = others.flatMap postorder) : trees = others := by
  have hgrown := congrArg (grow []) h
  rw [grow_flatMap_postorder, grow_flatMap_postorder, List.append_nil, List.append_nil] at hgrown
  exact List.reverse_injective hgrown

/-- A listing is the listing of one tree only. -/
theorem postorder_injective {e e' : Expr} (h : e.postorder = e'.postorder) : e = e' := by
  have hrows : [e].flatMap postorder = [e'].flatMap postorder := by simpa using h
  exact List.singleton_inj.1 (flatMap_postorder_injective hrows)

end Expr

namespace ReversePolish

open Calculator.Expr

/-- A row of blocks with these values, both from the left to the right. -/
def Blocks (env : Environment) (row : List Token) (values : List Int) : Prop :=
  ∃ trees : List Expr, row = trees.flatMap postorder ∧ Valued env trees values

/-- What is wrong with a token behind blocks whose values are on the stack. -/
inductive Fault (env : Environment) : List Int → Token → EvalError → Prop
  | unbound {stack : List Int} {x : Text} (h : env.lookup x = none) :
      Fault env stack (.identifier x) (.unknownVariable x)
  | missing {stack : List Int} (op : Operator) (h : stack.length < 2) :
      Fault env stack (.operator op) (.missingOperand op)
  | zero (left : Int) (stack : List Int) :
      Fault env (0 :: left :: stack) (.operator .div) .divisionByZero
  | paren {stack : List Int} {t : Token} (h : t.isParen) : Fault env stack t (.unexpectedToken t)

/-! ## Where the machine stops -/

theorem execToken_of_few {stack : List Int} (h : stack.length < 2) (env : Environment)
    (op : Operator) : execToken env stack (.operator op) = .error (.missingOperand op) := by
  match stack with
  | [] => rfl
  | [_] => rfl
  | right :: left :: rest =>
      simp only [List.length_cons] at h
      omega

theorem execToken_of_paren {t : Token} (h : t.isParen) (env : Environment) (stack : List Int) :
    execToken env stack t = .error (.unexpectedToken t) := by
  have hparen : t = .leftParen ∨ t = .rightParen := by cases t <;> simp [Token.isParen] at h ⊢
  cases stack with
  | nil => obtain rfl | rfl := hparen <;> rfl
  | cons right below => cases below <;> obtain rfl | rfl := hparen <;> rfl

/-- **One token** stops the machine exactly if there is a fault at it. -/
theorem execToken_eq_error_iff {env : Environment} {stack : List Int} {t : Token}
    {cause : EvalError} : execToken env stack t = .error cause ↔ Fault env stack t cause := by
  constructor
  · intro h
    cases t with
    | number n => cases h
    | identifier x =>
        obtain hquery | ⟨v, -, hput⟩ := Except.bind_eq_error_iff.1 h
        · obtain ⟨hnone, rfl⟩ := Environment.query_eq_error_iff.1 hquery
          exact .unbound hnone
        · cases hput
    | operator op =>
        match stack with
        | [] => cases h; exact .missing op (Nat.zero_lt_two)
        | [_] => cases h; exact .missing op (Nat.one_lt_two)
        | right :: left :: rest =>
            obtain happly | ⟨v, -, hput⟩ := Except.bind_eq_error_iff.1 h
            · obtain ⟨rfl, rfl, rfl⟩ := Operator.apply_error_iff.1 happly
              exact .zero left rest
            · cases hput
    | leftParen =>
        rw [execToken_of_paren rfl] at h
        cases h
        exact .paren rfl
    | rightParen =>
        rw [execToken_of_paren rfl] at h
        cases h
        exact .paren rfl
  · intro h
    cases h with
    | unbound hnone =>
        exact Except.bind_eq_error_iff.2 (Or.inl (Environment.query_eq_error_iff.2 ⟨hnone, rfl⟩))
    | missing op hfew => exact execToken_of_few hfew env op
    | zero left rest => rfl
    | paren hparen => exact execToken_of_paren hparen env stack

/-- **A row** stops the machine at the first token with a fault. -/
theorem exec_eq_error_iff {env : Environment} {stack : List Int} {row : List Token}
    {cause : EvalError} :
    exec env stack row = .error cause ↔
      ∃ front t back reached, row = front ++ t :: back ∧ exec env stack front = .ok reached ∧
        Fault env reached t cause := by
  constructor
  · intro h
    induction row generalizing stack with
    | nil => cases h
    | cons t row ih =>
        rw [exec_cons] at h
        obtain htoken | ⟨next, hnext, hrest⟩ := Except.bind_eq_error_iff.1 h
        · exact ⟨[], t, row, stack, rfl, rfl, execToken_eq_error_iff.1 htoken⟩
        · obtain ⟨front, u, back, reached, rfl, hfront, hfault⟩ := ih hrest
          refine ⟨t :: front, u, back, reached, rfl, ?_, hfault⟩
          rw [exec_cons, hnext]
          exact hfront
  · intro h
    obtain ⟨front, t, back, reached, rfl, hfront, hfault⟩ := h
    rw [exec_append, hfront]
    change exec env reached (t :: back) = .error cause
    rw [exec_cons, execToken_eq_error_iff.2 hfault]
    rfl

/-- A row of blocks puts their values on the stack. -/
theorem exec_flatMap_postorder {env : Environment} {trees : List Expr} {values : List Int}
    (h : Valued env trees values) (stack : List Int) :
    exec env stack (trees.flatMap postorder) = .ok (values.reverse ++ stack) := by
  induction h generalizing stack with
  | nil => rfl
  | @cons e v trees values hvalue _ ih =>
      rw [List.flatMap_cons, exec_postorder, hvalue]
      change exec env (v :: stack) (trees.flatMap postorder) = _
      rw [ih]
      simp

/-- **The rows that do not stop the machine are the rows of blocks.** -/
theorem exec_eq_ok_iff {env : Environment} {row : List Token} {stack : List Int} :
    exec env [] row = .ok stack ↔ Blocks env row stack.reverse := by
  constructor
  · intro h
    have hempty : Valued env [] [] := List.Forall₂.nil
    obtain ⟨trees, htrees, hrow⟩ := exec_trees hempty h
    exact ⟨trees.reverse, hrow, List.forall₂_reverse_iff.2 htrees⟩
  · intro h
    obtain ⟨trees, rfl, htrees⟩ := h
    have hexec := exec_flatMap_postorder htrees []
    rwa [List.reverse_reverse, List.append_nil] at hexec

/-- **All that can be wrong with a row**: the first fault behind blocks, or the number of blocks. -/
theorem evaluate_eq_error_iff {env : Environment} {row : List Token} {cause : EvalError} :
    evaluate env row = .error cause ↔
      (∃ front t back values, row = front ++ t :: back ∧ Blocks env front values ∧
        Fault env values.reverse t cause) ∨
      ∃ values, Blocks env row values ∧ values.length ≠ 1 ∧
        cause = .leftoverOperands values.length := by
  rw [evaluate, Except.bind_eq_error_iff]
  refine or_congr ?_ ?_
  · rw [exec_eq_error_iff]
    constructor
    · intro h
      obtain ⟨front, t, back, reached, hrow, hfront, hfault⟩ := h
      refine ⟨front, t, back, reached.reverse, hrow, exec_eq_ok_iff.1 hfront, ?_⟩
      rwa [List.reverse_reverse]
    · intro h
      obtain ⟨front, t, back, values, hrow, hfront, hfault⟩ := h
      refine ⟨front, t, back, values.reverse, hrow, exec_eq_ok_iff.2 ?_, hfault⟩
      rwa [List.reverse_reverse]
  · constructor
    · intro h
      obtain ⟨stack, hexec, hsole⟩ := h
      obtain ⟨hlength, rfl⟩ := soleValue_error_iff.1 hsole
      refine ⟨stack.reverse, exec_eq_ok_iff.1 hexec, ?_, ?_⟩
      · rwa [List.length_reverse]
      · rw [List.length_reverse]
    · intro h
      obtain ⟨values, hblocks, hlength, rfl⟩ := h
      refine ⟨values.reverse, exec_eq_ok_iff.2 ?_, soleValue_error_iff.2 ⟨?_, ?_⟩⟩
      · rwa [List.reverse_reverse]
      · rwa [List.length_reverse]
      · rw [List.length_reverse]

/-! ## What a row comes to -/

/-- A failure that only one token can cause is the failure of a row exactly if the token stands
behind blocks that make it a fault. -/
theorem evaluate_eq_fault_iff {env : Environment} {row : List Token} {t : Token}
    {cause : EvalError} {Faulty : List Int → Prop} (hcause : ∀ k, cause ≠ .leftoverOperands k)
    (hfault : ∀ values u, Fault env values.reverse u cause ↔ u = t ∧ Faulty values) :
    evaluate env row = .error cause ↔
      ∃ front back values, row = front ++ t :: back ∧ Blocks env front values ∧ Faulty values := by
  rw [evaluate_eq_error_iff]
  constructor
  · intro h
    rcases h with ⟨front, u, back, values, hrow, hblocks, hu⟩ | ⟨values, -, -, hleftover⟩
    · obtain ⟨rfl, hfaulty⟩ := (hfault values u).1 hu
      exact ⟨front, back, values, hrow, hblocks, hfaulty⟩
    · exact absurd hleftover (hcause _)
  · intro h
    obtain ⟨front, back, values, hrow, hblocks, hfaulty⟩ := h
    exact Or.inl ⟨front, t, back, values, hrow, hblocks, (hfault values t).2 ⟨rfl, hfaulty⟩⟩

theorem fault_unknownVariable_iff {env : Environment} {stack : List Int} {t : Token} {x : Text} :
    Fault env stack t (.unknownVariable x) ↔ t = .identifier x ∧ env.lookup x = none := by
  constructor
  · intro h
    cases h with
    | unbound hnone => exact ⟨rfl, hnone⟩
  · intro h
    obtain ⟨rfl, hnone⟩ := h
    exact .unbound hnone

theorem fault_missingOperand_iff {env : Environment} {stack : List Int} {t : Token}
    {op : Operator} :
    Fault env stack t (.missingOperand op) ↔ t = .operator op ∧ stack.length < 2 := by
  constructor
  · intro h
    cases h with
    | missing op hfew => exact ⟨rfl, hfew⟩
  · intro h
    obtain ⟨rfl, hfew⟩ := h
    exact .missing op hfew

theorem fault_divisionByZero_iff {env : Environment} {stack : List Int} {t : Token} :
    Fault env stack t .divisionByZero ↔
      t = .operator .div ∧ 2 ≤ stack.length ∧ stack.head? = some 0 := by
  constructor
  · intro h
    cases h with
    | zero left rest => exact ⟨rfl, by simp, rfl⟩
  · intro h
    obtain ⟨rfl, hlength, hzero⟩ := h
    match stack with
    | [] | [_] => simp at hlength
    | right :: left :: rest =>
        cases hzero
        exact .zero left rest

theorem fault_unexpectedToken_iff {env : Environment} {stack : List Int} {t u : Token} :
    Fault env stack t (.unexpectedToken u) ↔ t = u ∧ u.isParen := by
  constructor
  · intro h
    cases h with
    | paren hparen => exact ⟨rfl, hparen⟩
  · intro h
    obtain ⟨rfl, hparen⟩ := h
    exact .paren hparen

/-- The number of values at the end is no fault of a token. -/
theorem not_fault_leftoverOperands {env : Environment} {stack : List Int} {t : Token} {k : Nat} :
    ¬Fault env stack t (.leftoverOperands k) := by
  intro h
  cases h

/-- The number of values at the end is told exactly of the rows of blocks that are not one. -/
theorem evaluate_eq_leftoverOperands_iff {env : Environment} {row : List Token} {k : Nat} :
    evaluate env row = .error (.leftoverOperands k) ↔
      k ≠ 1 ∧ ∃ values, Blocks env row values ∧ values.length = k := by
  rw [evaluate_eq_error_iff]
  constructor
  · intro h
    rcases h with ⟨_, _, _, _, -, -, hfault⟩ | ⟨values, hblocks, hlength, hk⟩
    · exact absurd hfault not_fault_leftoverOperands
    · cases hk
      exact ⟨hlength, values, hblocks, rfl⟩
  · intro h
    obtain ⟨hk, values, hblocks, rfl⟩ := h
    exact Or.inr ⟨values, hblocks, hk, rfl⟩

/-- **A row has a value or a first fault.**  It has a value exactly if it is the listing of a tree
with that value, and then of this tree only; nor is any row told apart into several trees in two
ways.  Otherwise it fails: for the number of its blocks, if it is a row of blocks and not of one
block; for an operator behind fewer than two blocks; for a division behind at least two blocks, the
last of which is worth zero; for an unbound name behind blocks; or for a parenthesis behind
blocks. -/
theorem value_or_first_fault (env : Environment) (row : List Token) :
    (∀ v, evaluate env row = .ok v ↔ ∃ e : Expr, row = e.postorder ∧ e.value env = .ok v ∧
        ∀ other : Expr, row = other.postorder → other = e) ∧
      (∀ trees others : List Expr, row = trees.flatMap postorder →
        row = others.flatMap postorder → trees = others) ∧
      (∀ k, evaluate env row = .error (.leftoverOperands k) ↔
        k ≠ 1 ∧ ∃ values, Blocks env row values ∧ values.length = k) ∧
      (∀ op, evaluate env row = .error (.missingOperand op) ↔
        ∃ front back values, row = front ++ .operator op :: back ∧ Blocks env front values ∧
          values.length < 2) ∧
      (evaluate env row = .error .divisionByZero ↔
        ∃ front back values, row = front ++ .operator .div :: back ∧ Blocks env front values ∧
          2 ≤ values.length ∧ values.getLast? = some 0) ∧
      (∀ x, evaluate env row = .error (.unknownVariable x) ↔
        ∃ front back values, row = front ++ .identifier x :: back ∧ Blocks env front values ∧
          env.lookup x = none) ∧
      ∀ t, evaluate env row = .error (.unexpectedToken t) ↔
        ∃ front back values, row = front ++ t :: back ∧ Blocks env front values ∧ t.isParen := by
  refine ⟨?_, ?_, fun k => evaluate_eq_leftoverOperands_iff, ?_, ?_, ?_, ?_⟩
  · intro v
    rw [evaluate_eq_ok_iff]
    constructor
    · intro h
      obtain ⟨e, hrow, hvalue⟩ := h
      exact ⟨e, hrow, hvalue, fun other hother => postorder_injective (hother.symm.trans hrow)⟩
    · intro h
      obtain ⟨e, hrow, hvalue, -⟩ := h
      exact ⟨e, hrow, hvalue⟩
  · intro trees others htrees hothers
    exact flatMap_postorder_injective (htrees.symm.trans hothers)
  · intro op
    refine evaluate_eq_fault_iff (by simp) fun values u => ?_
    rw [fault_missingOperand_iff, List.length_reverse]
  · refine evaluate_eq_fault_iff (by simp) fun values u => ?_
    rw [fault_divisionByZero_iff, List.length_reverse, List.head?_reverse]
  · intro x
    exact evaluate_eq_fault_iff (by simp) fun values u => fault_unknownVariable_iff
  · intro t
    exact evaluate_eq_fault_iff (by simp) fun values u => fault_unexpectedToken_iff

/-- A division by zero in front of a parenthesis, and a row of two blocks. -/
theorem value_or_first_fault_zero :
    (∃ front back values,
        [Token.identifier ['a'], .number 2, .operator .sub, .number 0, .operator .div,
          .rightParen] = front ++ .operator .div :: back ∧
        Blocks (Environment.empty.assign ['a'] 5) front values ∧ 2 ≤ values.length ∧
        values.getLast? = some 0) ∧
      ∀ trees : List Expr,
        [Token.number 7, .number 2, .number 3, .operator .mul] = trees.flatMap postorder →
        trees = [.number 7, .binary .mul (.number 2) (.number 3)] := by
  have hzero : evaluate (Environment.empty.assign ['a'] 5)
      [.identifier ['a'], .number 2, .operator .sub, .number 0, .operator .div, .rightParen] =
        .error .divisionByZero := rfl
  refine ⟨(value_or_first_fault _ _).2.2.2.2.1.1 hzero, fun trees htrees => ?_⟩
  exact (value_or_first_fault Environment.empty _).2.1 trees _ htrees rfl

end ReversePolish

/-! ## Why a line has no value -/

namespace Session

/-- An expression that was read fails where its row of tokens fails. -/
theorem evaluate_eval_error {env : Environment} {source : Text} {cause : EvalError}
    (h : evaluate env source = .error (.eval cause)) :
    ∃ tokens row, ReversePolish.arrange tokens = .ok row ∧
      ReversePolish.evaluate env row = .error cause := by
  cases hread : tokenize source with
  | error inner =>
      rw [evaluate_of_tokenize_error hread] at h
      cases h
  | ok tokens =>
      cases hrow : ReversePolish.arrange tokens with
      | error inner =>
          rw [evaluate_of_arrange_error hread hrow] at h
          cases h
      | ok row =>
          rw [evaluate_of_ok hread hrow] at h
          obtain ⟨inner, hvalue, hwrapped⟩ := Except.mapError_eq_error_iff.1 h
          cases hwrapped
          exact ⟨tokens, row, hrow, hvalue⟩

/-- **A line that was read fails for the name it asks for, or where its row of tokens fails.** -/
theorem execute_eval_error {env : Environment} {line : Text} {cause : EvalError}
    (h : (execute env line).1 = .error (.eval cause)) :
    (∃ x, env.query x = .error cause) ∨
      ∃ tokens row, ReversePolish.arrange tokens = .ok row ∧
        ReversePolish.evaluate env row = .error cause := by
  cases hparse : Statement.parse line with
  | error inner =>
      rw [execute, hparse] at h
      cases h
  | ok statement =>
      rw [execute, hparse] at h
      cases statement with
      | blank => cases h
      | command command => cases command <;> cases h
      | assignment name source =>
          -- A copy of an unbound name is refused as an assignment, and not for want of the name.
          obtain ⟨inner, -, hwrapped⟩ :=
            Except.mapError_eq_error_iff.1 (Except.map_eq_error_iff.1 h)
          cases hwrapped
      | query x =>
          obtain ⟨inner, hquery, hwrapped⟩ :=
            Except.mapError_eq_error_iff.1 (Except.map_eq_error_iff.1 h)
          cases hwrapped
          exact Or.inl ⟨x, hquery⟩
      | expression text => exact Or.inr (evaluate_eval_error (Except.map_eq_error_iff.1 h))

end Session

end Calculator
