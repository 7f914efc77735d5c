import Calculator.Proofs.Arrangement
import Mathlib.Data.List.Chain

/-!
# Missing operands and missing operators

Between two neighbours of a row, and at its two ends, there is a **joint**.  A
joint has two sides: whether an operand is expected there, and whether the next
token starts one.  Where both sides say the same the joint fits; where an
operand is expected and none starts, an operand is missing; and where none is
expected and one starts, an operator is missing.

Every operand fills an expectation, and every operator raises one, so a row with
one operand more than operators misses as many operators as operands.  The
machine checks this number and nothing else, which is enough to catch a missing
operand where no operator is missing, but not an operator whose place an operand
that is missing elsewhere makes up for.

* `joints_balance` — the numbers of operands, operators and joints that do not fit;
* `joints_of_derives` — the joints of a sentence fit;
* `sentence_of_joints` — and a row whose joints fit and whose parentheses are
  balanced is a sentence.
-/

namespace Calculator

namespace Token

/-- Whether an operand starts with the token. -/
def startsOperand : Token → Bool
  | number _ | identifier _ | leftParen => true
  | operator _ | rightParen => false

/-- The joints of a row, from the left to the right; the flag tells whether an operand is
expected at its start.  No operand starts at the end. -/
def joints : Bool → List Token → List (Bool × Bool)
  | expected, [] => [(expected, false)]
  | expected, token :: rest => (expected, token.startsOperand) :: joints token.awaitsOperand rest

/-- The number of joints at which an operand is expected and none starts. -/
def missingOperands (tokens : List Token) : Nat :=
  (joints true tokens).count (true, false)

/-- The number of joints at which an operand starts and none is expected. -/
def missingOperators (tokens : List Token) : Nat :=
  (joints true tokens).count (false, true)

/-- No value stands right behind a value: no number, name or closing parenthesis has a number,
a name or an opening parenthesis right after it. -/
def JuxtapositionFree (tokens : List Token) : Prop :=
  tokens.IsChain fun s t => ¬(s.awaitsOperand = false ∧ t.startsOperand = true)

/-- **The balance of the joints.**  The operands and the missing operands of a row are as many
as its operators, its missing operators and the expectation at its start. -/
theorem joints_balance (expected : Bool) (tokens : List Token) :
    tokens.countP isOperand + (joints expected tokens).count (true, false) =
      tokens.countP isOperator + (joints expected tokens).count (false, true) +
        expected.toNat := by
  induction tokens generalizing expected with
  | nil => cases expected <;> rfl
  | cons token tokens ih =>
      have hrest := ih token.awaitsOperand
      clear ih
      rw [joints, List.countP_cons, List.countP_cons, List.count_cons, List.count_cons]
      cases expected <;> cases token <;>
        simp [isOperand, isOperator, startsOperand, awaitsOperand] at hrest ⊢ <;> omega

/-- Behind a token no operator is missing exactly if no value stands right behind a value. -/
theorem joints_behind {front : Token} {tokens : List Token} :
    (joints front.awaitsOperand tokens).count (false, true) = 0 ↔
      (front :: tokens).IsChain fun s t =>
        ¬(s.awaitsOperand = false ∧ t.startsOperand = true) := by
  induction tokens generalizing front with
  | nil => simp [joints]
  | cons token tokens ih =>
      rw [List.isChain_cons_cons, ← @ih token, joints, List.count_cons]
      cases front.awaitsOperand <;> cases token.startsOperand <;> simp

/-- The rows that miss no operator are those in which no value stands right behind a value. -/
theorem missingOperators_eq_zero_iff {tokens : List Token} :
    missingOperators tokens = 0 ↔ JuxtapositionFree tokens := by
  have hbehind := @joints_behind leftParen tokens
  rw [List.isChain_cons] at hbehind
  simpa [missingOperators, JuxtapositionFree, awaitsOperand] using hbehind

theorem joints_fit {tokens : List Token} (hoperators : missingOperators tokens = 0)
    (hoperands : missingOperands tokens = 0) : ∀ joint ∈ joints true tokens, joint.1 = joint.2 := by
  intro joint hjoint
  rcases joint with ⟨expected, starts⟩
  rw [missingOperators, List.count_eq_zero] at hoperators
  rw [missingOperands, List.count_eq_zero] at hoperands
  cases expected <;> cases starts
  · rfl
  · exact absurd hjoint hoperators
  · exact absurd hjoint hoperands
  · rfl

/-- **A derived row in front of others.**  All joints up to its end fit, and no operand is
expected behind it. -/
theorem joints_of_derives {level : Level} {tokens : List Token} {e : Expr}
    (h : Derives level tokens e) (rest : List Token) :
    ∃ fitting, (∀ joint ∈ fitting, joint.1 = joint.2) ∧
      joints true (tokens ++ rest) = fitting ++ joints false rest := by
  induction h generalizing rest with
  | number n => exact ⟨[(true, true)], by simp, rfl⟩
  | identifier x => exact ⟨[(true, true)], by simp, rfl⟩
  | @group tokens e inner ih =>
      obtain ⟨fitting, hfit, hjoints⟩ := ih (rightParen :: rest)
      refine ⟨(true, true) :: fitting ++ [(false, false)], ?_, ?_⟩
      · intro joint hjoint
        simp only [List.cons_append, List.mem_cons, List.mem_append, List.not_mem_nil,
          or_false] at hjoint
        rcases hjoint with rfl | hmem | rfl
        · rfl
        · exact hfit joint hmem
        · rfl
      · have hrow : leftParen :: tokens ++ [rightParen] ++ rest =
            leftParen :: (tokens ++ rightParen :: rest) := by simp
        rw [hrow, joints, awaitsOperand, hjoints]
        simp [joints, startsOperand, awaitsOperand]
  | single only ih => exact ih rest
  | @chain op first second left right before after ihl ihr =>
      obtain ⟨early, hearly, hfirst⟩ := ihl (operator op :: (second ++ rest))
      obtain ⟨late, hlate, hsecond⟩ := ihr rest
      refine ⟨early ++ (false, false) :: late, ?_, ?_⟩
      · intro joint hjoint
        rcases List.mem_append.1 hjoint with hmem | hmem
        · exact hearly joint hmem
        · rcases List.mem_cons.1 hmem with rfl | hmem
          · rfl
          · exact hlate joint hmem
      · have hrow : first ++ operator op :: second ++ rest =
            first ++ operator op :: (second ++ rest) := by simp
        rw [hrow, hfirst, joints, awaitsOperand, hsecond]
        simp [startsOperand]

/-- A sentence misses neither an operator nor an operand. -/
theorem missing_of_sentence {tokens : List Token} (h : IsSentence tokens) :
    missingOperators tokens = 0 ∧ missingOperands tokens = 0 := by
  obtain ⟨e, he⟩ := h
  obtain ⟨fitting, hfit, hjoints⟩ := joints_of_derives he []
  rw [List.append_nil] at hjoints
  have hall : ∀ joint ∈ joints true tokens, joint.1 = joint.2 := by
    intro joint hjoint
    rw [hjoints] at hjoint
    rcases List.mem_append.1 hjoint with hmem | hmem
    · exact hfit joint hmem
    · rw [List.mem_singleton.1 hmem]
  rw [missingOperators, missingOperands, List.count_eq_zero, List.count_eq_zero]
  refine ⟨?_, ?_⟩
  · intro hmem
    cases hall _ hmem
  · intro hmem
    cases hall _ hmem

end Token

namespace ReversePolish

open Token

/-- A front part behind which no operand is expected: a sentence; or, where a group is open,
a sentence behind its parenthesis, with a front part before it that lacks only an operand. -/
def Ended : Nat → List Token → Prop
  | 0, row => IsSentence row
  | depth + 1, row => ∃ front inner, row = front ++ leftParen :: inner ∧ IsSentence inner ∧
      ∀ factor e, Derives .factor factor e → Ended depth (front ++ factor)

/-- A front part that lacks only an operand: with any factor behind it, it has ended. -/
def Hanging (depth : Nat) (front : List Token) : Prop :=
  ∀ factor e, Derives .factor factor e → Ended depth (front ++ factor)

/-- A front part of a row whose joints fit, with as many open groups as the number tells. -/
def Underway : Bool → Nat → List Token → Prop
  | true => Hanging
  | false => Ended

theorem product_extend {row factor : List Token} {left f : Expr} {op : Operator}
    (hlevel : op.level = .product) (hrow : Derives .product row left)
    (hfactor : Derives .factor factor f) :
    Derives .product (row ++ operator op :: factor) (.binary op left f) := by
  rw [← hlevel] at hrow ⊢
  exact Derives.chain hrow (hfactor.relax _)

/-- A sentence goes on with an operator and a factor.  An operator that binds tightly takes
the last product of the sentence for its left operand. -/
theorem sentence_extend {row factor : List Token} {f : Expr} (op : Operator)
    (h : IsSentence row) (hfactor : Derives .factor factor f) :
    IsSentence (row ++ operator op :: factor) := by
  obtain ⟨e, he⟩ := h
  cases hlevel : op.level with
  | factor => cases op <;> cases hlevel
  | sum =>
      have hchain : Derives op.level (row ++ operator op :: factor) (.binary op e f) :=
        Derives.chain (by rw [hlevel]; exact he) (hfactor.relax _)
      rw [hlevel] at hchain
      exact ⟨_, hchain⟩
  | product =>
      generalize hsum : Level.sum = level at he
      cases he with
      | number n => cases hsum
      | identifier x => cases hsum
      | group inner => cases hsum
      | single only =>
          subst hsum
          exact ⟨_, Derives.single (product_extend hlevel only hfactor)⟩
      | @chain op' first second left right before after =>
          have hafter : Derives op'.level.tighter (second ++ operator op :: factor)
              (.binary op right f) := by
            rw [← hsum] at after ⊢
            exact product_extend hlevel after hfactor
          have hall := Derives.chain before hafter
          rw [← hsum] at hall
          have hrow : first ++ operator op' :: second ++ operator op :: factor =
              first ++ operator op' :: (second ++ operator op :: factor) := by simp
          rw [hrow]
          exact ⟨_, hall⟩

theorem Ended.operator {depth : Nat} {row : List Token} (h : Ended depth row) (op : Operator) :
    Hanging depth (row ++ [operator op]) := by
  intro factor f hfactor
  cases depth with
  | zero =>
      have hrow := sentence_extend op h hfactor
      simpa [Ended] using hrow
  | succ depth =>
      obtain ⟨front, inner, rfl, hinner, hfront⟩ := h
      refine ⟨front, inner ++ .operator op :: factor, by simp, ?_, hfront⟩
      exact sentence_extend op hinner hfactor

theorem Hanging.leftParen {depth : Nat} {front : List Token} (h : Hanging depth front) :
    Hanging (depth + 1) (front ++ [leftParen]) := by
  intro factor f hfactor
  exact ⟨front, factor, by simp, ⟨f, hfactor.relax .sum⟩, h⟩

theorem Ended.rightParen {depth : Nat} {row : List Token} (h : Ended (depth + 1) row) :
    Ended depth (row ++ [rightParen]) := by
  obtain ⟨front, inner, rfl, ⟨e, hinner⟩, hfront⟩ := h
  have hgroup := hfront _ e (Derives.group hinner)
  simpa using hgroup

/-- **One token** that fits behind what is underway. -/
theorem step_underway {yard next : Yard} {token : Token} {leaving front : List Token}
    (hstep : yard.step token = .ok (leaving, next))
    (h : Underway token.startsOperand yard.depth front) :
    Underway token.awaitsOperand next.depth (front ++ [token]) := by
  cases token with
  | number n =>
      cases hstep
      exact h _ _ (Derives.number n)
  | identifier x =>
      cases hstep
      exact h _ _ (Derives.identifier x)
  | operator op =>
      cases hstep
      exact Ended.operator h op
  | leftParen =>
      cases hstep
      exact Hanging.leftParen h
  | rightParen =>
      obtain ⟨henclosing, -⟩ := Yard.step_rightParen hstep
      have hdepth : yard.depth = next.depth + 1 := by simp [Yard.depth, henclosing]
      have hended : Ended (next.depth + 1) front := hdepth ▸ h
      exact Ended.rightParen hended

/-- **A row whose joints fit** has ended when it is through. -/
theorem run_underway {yard last : Yard} {tokens out front : List Token} {expected : Bool}
    (hrun : yard.run tokens = .ok (out, last))
    (hfit : ∀ joint ∈ joints expected tokens, joint.1 = joint.2)
    (h : Underway expected yard.depth front) : Ended last.depth (front ++ tokens) := by
  induction tokens generalizing yard out front expected with
  | nil =>
      cases hrun
      have hend : expected = false := hfit (expected, false) (by simp [joints])
      rw [hend] at h
      rw [List.append_nil]
      exact h
  | cons token tokens ih =>
      obtain ⟨leaving, next, later, hstep, hnext, -⟩ := Yard.run_cons_ok hrun
      have hhere : expected = token.startsOperand :=
        hfit (expected, token.startsOperand) (by simp [joints])
      have hthere : ∀ joint ∈ joints token.awaitsOperand tokens, joint.1 = joint.2 :=
        fun joint hjoint => hfit joint (List.mem_cons_of_mem _ hjoint)
      rw [hhere] at h
      have hended := ih hnext hthere (step_underway hstep h)
      simpa using hended

/-- **A row that misses nothing and whose parentheses are balanced is a sentence.** -/
theorem sentence_of_joints {tokens row : List Token} (h : arrange tokens = .ok row)
    (hoperators : missingOperators tokens = 0) (hoperands : missingOperands tokens = 0) :
    IsSentence tokens := by
  obtain ⟨out, last, hrun, hclosed, -⟩ := arrange_ok h
  have hstart : Underway true Yard.empty.depth [] :=
    fun factor e hfactor => ⟨e, hfactor.relax .sum⟩
  have hended := run_underway hrun (joints_fit hoperators hoperands) hstart
  have hdepth : last.depth = 0 := by simp [Yard.depth, hclosed]
  rw [hdepth] at hended
  exact hended

/-! ## What is caught -/

theorem countP_listing (e : Expr) :
    e.postorder.countP isOperand = e.postorder.countP isOperator + 1 := by
  induction e with
  | number n => rfl
  | identifier x => rfl
  | binary op left right ihl ihr =>
      have hoperand : [operator op].countP isOperand = 0 := rfl
      have hoperator : [operator op].countP isOperator = 1 := rfl
      simp only [Expr.postorder, List.countP_append, ihl, ihr, hoperand, hoperator]
      omega

/-- **A row that is arranged into a listing misses as many operators as operands.** -/
theorem missing_eq_of_arrange {tokens : List Token} {e : Expr}
    (h : arrange tokens = .ok e.postorder) : missingOperands tokens = missingOperators tokens := by
  have hperm := arrange_perm h
  have hcount : ∀ p : Token → Bool, (∀ t, p t → !t.isParen) →
      tokens.countP p = e.postorder.countP p := by
    intro p hp
    rw [hperm.countP_eq, List.countP_filter]
    refine List.countP_congr fun t _ => ?_
    simp only [Bool.and_eq_true]
    exact ⟨fun ht => ⟨ht, hp t ht⟩, fun ht => ht.1⟩
  have hoperands := hcount isOperand (by intro t; cases t <;> simp [isOperand, isParen])
  have hoperators := hcount isOperator (by intro t; cases t <;> simp [isOperator, isParen])
  have hbalance := joints_balance true tokens
  have hlisting := countP_listing e
  simp only [Bool.toNat_true] at hbalance
  rw [missingOperands, missingOperators]
  omega

/-- A row with a value misses as many operators as operands. -/
theorem missing_eq_of_compute {env : Environment} {tokens : List Token} {v : Int}
    (h : compute env tokens = .ok v) : missingOperands tokens = missingOperators tokens := by
  obtain ⟨e, harrange, -⟩ := compute_eq_ok_iff.1 h
  exact missing_eq_of_arrange harrange

/-- **A missing operand is always caught.**  Where no value stands right behind a value, a
sentence has a value or fails for an unbound name or a division by zero, and any other row
fails. -/
theorem missing_operand_is_caught {tokens : List Token} (h : JuxtapositionFree tokens)
    (env : Environment) :
    (IsSentence tokens →
      (∃ v, compute env tokens = .ok v) ∨
        (∃ x, compute env tokens = .error (.eval (.unknownVariable x))) ∨
          compute env tokens = .error (.eval .divisionByZero)) ∧
      (¬IsSentence tokens → ∃ cause, compute env tokens = .error cause) := by
  constructor
  · intro hsentence
    obtain ⟨e, he⟩ := hsentence
    rw [compute_of_derives he]
    cases hvalue : e.value env with
    | ok v => exact Or.inl ⟨v, rfl⟩
    | error cause =>
        rcases Expr.value_error hvalue with ⟨x, -, rfl⟩ | rfl
        · exact Or.inr (Or.inl ⟨x, rfl⟩)
        · exact Or.inr (Or.inr rfl)
  · intro hsentence
    cases hcompute : compute env tokens with
    | error cause => exact ⟨cause, rfl⟩
    | ok v =>
        obtain ⟨e, harrange, -⟩ := compute_eq_ok_iff.1 hcompute
        have hoperators := missingOperators_eq_zero_iff.2 h
        have hoperands := missing_eq_of_compute hcompute
        rw [hoperators] at hoperands
        exact absurd (sentence_of_joints harrange hoperators hoperands) hsentence

/-- An operator and an empty group, and no value beside a value. -/
theorem missing_operand_is_caught_empty_group :
    JuxtapositionFree [.number 2, .operator .mul, .leftParen, .rightParen] ∧
      ¬IsSentence [.number 2, .operator .mul, .leftParen, .rightParen] ∧
      ∃ cause, compute Environment.empty [.number 2, .operator .mul, .leftParen, .rightParen] =
        .error cause := by
  have hfree : JuxtapositionFree [.number 2, .operator .mul, .leftParen, .rightParen] :=
    missingOperators_eq_zero_iff.1 (by decide)
  have hnot : ¬IsSentence [.number 2, .operator .mul, .leftParen, .rightParen] :=
    fun hsentence => absurd (missing_of_sentence hsentence).2 (by decide)
  exact ⟨hfree, hnot, (missing_operand_is_caught hfree Environment.empty).2 hnot⟩

/-- **A missing operator is caught unless a missing operand makes up for it.**  A row with a
value right behind a value is no sentence.  It has a value exactly if it is arranged into
the listing of a tree with that value, and then operands are missing in it in as many places
as operators.  A text with these tokens has the value of the row, or fails as the row fails. -/
theorem missing_operator_needs_missing_operand {tokens : List Token}
    (h : ¬JuxtapositionFree tokens) (env : Environment) :
    ¬IsSentence tokens ∧
      (∀ v, compute env tokens = .ok v ↔
        ∃ e : Expr, arrange tokens = .ok e.postorder ∧ e.value env = .ok v) ∧
      (∀ v, compute env tokens = .ok v →
        0 < missingOperands tokens ∧ missingOperands tokens = missingOperators tokens) ∧
      ∀ source, tokenize source = .ok tokens →
        Session.evaluate env source = compute env tokens := by
  have hpos : 0 < missingOperators tokens := by
    rw [Nat.pos_iff_ne_zero]
    exact fun hzero => h (missingOperators_eq_zero_iff.1 hzero)
  refine ⟨?_, fun v => compute_eq_ok_iff, ?_, ?_⟩
  · intro hsentence
    have hzero := (missing_of_sentence hsentence).1
    omega
  · intro v hv
    have heq := missing_eq_of_compute hv
    exact ⟨by omega, heq⟩
  · intro source hsource
    exact evaluate_eq_compute hsource env

/-- `(1)2+` has the value 3: the operator at the end stands for the one between the values. -/
theorem spare_operator_makes_up :
    ¬JuxtapositionFree [.leftParen, .number 1, .rightParen, .number 2, .operator .add] ∧
      tokenize "(1)2+".toList =
        .ok [.leftParen, .number 1, .rightParen, .number 2, .operator .add] ∧
      compute Environment.empty
        [.leftParen, .number 1, .rightParen, .number 2, .operator .add] = .ok 3 ∧
      Session.evaluate Environment.empty "(1)2+".toList = .ok 3 := by
  refine ⟨?_, rfl, rfl, rfl⟩
  intro hfree
  exact absurd (missingOperators_eq_zero_iff.2 hfree) (by decide)

/-- `(1)(2)` misses an operator and no operand, so it has no value. -/
theorem missing_operator_needs_missing_operand_groups :
    ¬JuxtapositionFree [.leftParen, .number 1, .rightParen, .leftParen, .number 2, .rightParen] ∧
      ∀ v, compute Environment.empty
        [.leftParen, .number 1, .rightParen, .leftParen, .number 2, .rightParen] ≠ .ok v := by
  have hjuxtaposed : ¬JuxtapositionFree
      [.leftParen, .number 1, .rightParen, .leftParen, .number 2, .rightParen] :=
    fun hfree => absurd (missingOperators_eq_zero_iff.2 hfree) (by decide)
  refine ⟨hjuxtaposed, fun v hv => ?_⟩
  have hmissing :=
    (missing_operator_needs_missing_operand hjuxtaposed Environment.empty).2.2.1 v hv
  exact absurd hmissing.1 (by decide)

end ReversePolish

end Calculator
