import Calculator.Expr.Grammar
import Calculator.Proofs.Listings
import Calculator.Session

/-!
# What leaves the yard

A token that is no parenthesis leaves the yard exactly once, so the row that
comes out is the row that went in, in another order and without parentheses.

For a row that the grammar derives the order is known as well: it is the
listing of the tree.  The induction over the derivation is about a row in the
middle of others.  Below it wait only operators that bind less tightly than all
of its own (`Level.Rests`), so none of them leaves before the row is through; and
of its own operators those of the row's level still wait at its end
(`Level.Leaves`), and leave together.

* `Yard.step_held` — what one token makes leave, and what waits after it;
* `arrange_perm` — nothing is lost and nothing is added;
* `run_derives`, `arrange_of_derives` — a derived row becomes the listing of its tree;
* `compute_eq_ok_iff` — a row has a value exactly if it becomes the listing of a tree with one.
-/

namespace Calculator

namespace Token

/-- The two tokens that only group. -/
def isParen : Token → Bool
  | leftParen | rightParen => true
  | _ => false

/-- The tokens that stand for a value. -/
def isOperand : Token → Bool
  | number _ | identifier _ => true
  | operator _ | leftParen | rightParen => false

/-- The tokens that operators are. -/
def isOperator : Token → Bool
  | operator _ => true
  | number _ | identifier _ | leftParen | rightParen => false

end Token

namespace ReversePolish

namespace Yard

/-- The operators that wait in a yard, as tokens. -/
def held (yard : Yard) : List Token :=
  (yard.waiting ++ yard.enclosing.flatten).map .operator

theorem isOperand_of_mem_held {yard : Yard} {t : Token} (h : t ∈ yard.held) :
    t.isOperand = false := by
  obtain ⟨op, -, rfl⟩ := List.mem_map.1 h
  rfl

theorem run_cons_ok {yard last : Yard} {token : Token} {tokens out : List Token}
    (h : yard.run (token :: tokens) = .ok (out, last)) :
    ∃ leaving next later, yard.step token = .ok (leaving, next) ∧
      next.run tokens = .ok (later, last) ∧ out = leaving ++ later := by
  rw [run_cons] at h
  cases hstep : yard.step token with
  | error e => rw [hstep] at h; cases h
  | ok result =>
      obtain ⟨leaving, next⟩ := result
      cases hrun : next.run tokens with
      | error e => simp [hstep, hrun, bind, Except.bind] at h
      | ok result =>
          obtain ⟨later, finish⟩ := result
          simp only [hstep, hrun, bind, Except.bind, pure, Except.pure, Except.ok.injEq,
            Prod.mk.injEq] at h
          obtain ⟨rfl, rfl⟩ := h
          exact ⟨leaving, next, later, rfl, hrun, rfl⟩

/-- Two parts that are taken in one after the other. -/
theorem run_append_ok {yard between last : Yard} {first second early later : List Token}
    (hfirst : yard.run first = .ok (early, between))
    (hsecond : between.run second = .ok (later, last)) :
    yard.run (first ++ second) = .ok (early ++ later, last) := by
  rw [run_append, hfirst]
  simp [bind, Except.bind, hsecond, pure, Except.pure]

theorem run_singleton {yard next : Yard} {token : Token} {leaving : List Token}
    (h : yard.step token = .ok (leaving, next)) :
    yard.run [token] = .ok (leaving, next) := by
  simp [run_cons, h, bind, Except.bind, pure, Except.pure]

/-- A row that is taken in in one go is taken in part by part. -/
theorem run_append_cases {yard last : Yard} {first second out : List Token}
    (h : yard.run (first ++ second) = .ok (out, last)) :
    ∃ early between later, yard.run first = .ok (early, between) ∧
      between.run second = .ok (later, last) ∧ out = early ++ later := by
  induction first generalizing yard out with
  | nil => exact ⟨[], yard, out, rfl, h, rfl⟩
  | cons token first ih =>
      obtain ⟨leaving, next, rest, hstep, hrun, rfl⟩ := run_cons_ok h
      obtain ⟨early, between, later, hfirst, hsecond, rfl⟩ := ih hrun
      exact ⟨leaving ++ early, between, later, run_append_ok (run_singleton hstep) hfirst, hsecond,
        (List.append_assoc ..).symm⟩

/-- **One token.**  Of the operators that wait, those in front leave.  Behind them an operand leaves
at once, and an operator is put in front of those that stay. -/
theorem step_held {yard next : Yard} {token : Token} {leaving : List Token}
    (h : yard.step token = .ok (leaving, next)) :
    ∃ gone stay, yard.held = gone ++ stay ∧ leaving = gone ++ [token].filter (·.isOperand) ∧
      next.held = [token].filter (·.isOperator) ++ stay := by
  cases token with
  | number n => cases h; exact ⟨[], yard.held, rfl, rfl, rfl⟩
  | identifier x => cases h; exact ⟨[], yard.held, rfl, rfl, rfl⟩
  | operator op =>
      cases h
      refine ⟨(yard.waiting.takeWhile (yieldsTo op)).map .operator,
        (yard.waiting.dropWhile (yieldsTo op) ++ yard.enclosing.flatten).map .operator, ?_, ?_, rfl⟩
      · rw [held, ← List.map_append, ← List.append_assoc, List.takeWhile_append_dropWhile]
      · exact (List.append_nil _).symm
  | leftParen => cases h; exact ⟨[], yard.held, rfl, rfl, rfl⟩
  | rightParen =>
      obtain ⟨henclosing, rfl⟩ := step_rightParen h
      refine ⟨yard.waiting.map .operator, next.held, ?_, (List.append_nil _).symm, rfl⟩
      rw [held, henclosing, List.flatten_cons, List.map_append]
      rfl

/-- **One token.**  What leaves and what waits is what waited, and the token. -/
theorem step_perm {yard next : Yard} {token : Token} {leaving : List Token}
    (h : yard.step token = .ok (leaving, next)) :
    (leaving ++ next.held).Perm ([token].filter (!·.isParen) ++ yard.held) := by
  obtain ⟨gone, stay, hheld, rfl, hnext⟩ := step_held h
  have htoken : [token].filter (!·.isParen) =
      [token].filter (·.isOperand) ++ [token].filter (·.isOperator) := by
    cases token <;> rfl
  rw [hheld, hnext, htoken, List.perm_iff_count]
  intro t
  simp only [List.count_append]
  omega

/-- **A row of tokens.**  What leaves and what waits at the end is what waited at the start,
and the tokens of the row but its parentheses. -/
theorem run_perm {yard last : Yard} {tokens out : List Token}
    (h : yard.run tokens = .ok (out, last)) :
    (out ++ last.held).Perm (tokens.filter (!·.isParen) ++ yard.held) := by
  induction tokens generalizing yard out with
  | nil =>
      cases h
      exact List.Perm.refl _
  | cons token tokens ih =>
      obtain ⟨leaving, next, later, hstep, hrun, rfl⟩ := run_cons_ok h
      have hlater := (ih hrun).append_left leaving
      have hleaving := (step_perm hstep).append_left (tokens.filter (!·.isParen))
      calc (leaving ++ later ++ last.held)
          = leaving ++ (later ++ last.held) := List.append_assoc ..
        List.Perm _ (leaving ++ (tokens.filter (!·.isParen) ++ next.held)) := hlater
        List.Perm _ (tokens.filter (!·.isParen) ++ (leaving ++ next.held)) := by
            rw [← List.append_assoc, ← List.append_assoc]
            exact List.perm_append_comm.append_right _
        List.Perm _ (tokens.filter (!·.isParen) ++ ([token].filter (!·.isParen) ++ yard.held)) :=
            hleaving
        List.Perm _ ((token :: tokens).filter (!·.isParen) ++ yard.held) := by
            rw [← List.append_assoc, ← List.singleton_append (l := tokens), List.filter_append]
            exact List.perm_append_comm.append_right _

end Yard

theorem arrange_ok {tokens row : List Token} (h : arrange tokens = .ok row) :
    ∃ out last, Yard.empty.run tokens = .ok (out, last) ∧ last.enclosing = [] ∧
      row = out ++ last.waiting.map .operator := by
  cases hrun : Yard.empty.run tokens with
  | error e => simp [arrange, hrun, bind, Except.bind] at h
  | ok result =>
      obtain ⟨out, last⟩ := result
      cases hdepth : last.enclosing with
      | cons outer rest => simp [arrange, hrun, Yard.drain, hdepth, bind, Except.bind] at h
      | nil =>
          refine ⟨out, last, rfl, hdepth, ?_⟩
          simpa [arrange, hrun, Yard.drain, hdepth, bind, Except.bind, pure, Except.pure,
            eq_comm] using h

/-- A row at whose end no group is open is arranged. -/
theorem arrange_of_run {tokens out : List Token} {last : Yard}
    (hrun : Yard.empty.run tokens = .ok (out, last)) (hclosed : last.enclosing = []) :
    arrange tokens = .ok (out ++ last.waiting.map .operator) := by
  rw [arrange, hrun]
  simp [Yard.drain, hclosed, bind, Except.bind, pure, Except.pure]

/-- **Nothing is lost and nothing is added.**  The row that comes out has the tokens of the
row that went in, parentheses apart. -/
theorem arrange_perm {tokens row : List Token} (h : arrange tokens = .ok row) :
    row.Perm (tokens.filter (!·.isParen)) := by
  obtain ⟨out, last, hrun, hdepth, rfl⟩ := arrange_ok h
  have hperm := Yard.run_perm hrun
  simpa [Yard.held, Yard.empty, hdepth] using hperm

end ReversePolish

/-! ## Rows that the grammar derives -/

/-- What may wait under a row of a level: operators that bind less tightly than the row's. -/
def Level.Rests : Level → List Operator → Prop
  | sum, waiting => waiting = []
  | product, waiting => ∀ op ∈ waiting, op.level = sum
  | factor, _ => True

/-- What a row of a level may leave waiting: operators that bind as tightly as the level. -/
def Level.Leaves : Level → List Operator → Prop
  | sum, _ => True
  | product, waiting => ∀ op ∈ waiting, op.level = product
  | factor, waiting => waiting = []

theorem Level.Rests.tighter {level : Level} {waiting : List Operator}
    (h : level.Rests waiting) : level.tighter.Rests waiting := by
  cases level with
  | sum =>
      intro op hop
      rw [show waiting = [] from h] at hop
      cases hop
  | product => trivial
  | factor => trivial

theorem Level.Leaves.of_tighter {level : Level} {waiting : List Operator}
    (h : level.tighter.Leaves waiting) : level.Leaves waiting := by
  cases level with
  | sum => trivial
  | product =>
      intro op hop
      rw [show waiting = [] from h] at hop
      cases hop
  | factor => exact h

/-- An operator may wait under its own right operand. -/
theorem Level.Rests.push {op : Operator} {waiting : List Operator}
    (h : op.level.Rests waiting) : op.level.tighter.Rests (op :: waiting) := by
  cases hlevel : op.level with
  | sum =>
      rw [hlevel] at h
      intro top htop
      rw [show waiting = [] from h, List.mem_singleton] at htop
      rw [htop, hlevel]
  | product => trivial
  | factor => trivial

/-- What an operator's right operand leaves, and the operator under it, may be left by the chain. -/
theorem Level.Leaves.push {op : Operator} {waiting : List Operator}
    (h : op.level.tighter.Leaves waiting) : op.level.Leaves (waiting ++ [op]) := by
  cases op with
  | add => trivial
  | sub => trivial
  | mul =>
      intro top htop
      rw [show waiting = [] from h, List.nil_append, List.mem_singleton] at htop
      rw [htop]
      rfl
  | div =>
      intro top htop
      rw [show waiting = [] from h, List.nil_append, List.mem_singleton] at htop
      rw [htop]
      rfl

namespace ReversePolish

theorem yieldsTo_eq (op top : Operator) :
    yieldsTo op top = (op.level == .sum || top.level == .product) := by
  cases op <;> cases top <;> rfl

/-- An operator makes those of the row before it leave, and none of those below. -/
theorem Yard.step_between {op : Operator} {above below : List Operator}
    (habove : op.level.Leaves above) (hbelow : op.level.Rests below)
    (enclosing : List (List Operator)) :
    Yard.step ⟨above ++ below, enclosing⟩ (.operator op) =
      .ok (above.map .operator, ⟨op :: below, enclosing⟩) := by
  have hleave : ∀ top ∈ above, yieldsTo op top := by
    intro top htop
    rw [yieldsTo_eq]
    cases hlevel : op.level with
    | sum => rfl
    | product =>
        rw [hlevel] at habove
        rw [habove top htop]
        rfl
    | factor => cases op <;> cases hlevel
  have hstay : ∀ top ∈ below, yieldsTo op top = false := by
    intro top htop
    rw [yieldsTo_eq]
    cases hlevel : op.level with
    | sum =>
        rw [hlevel] at hbelow
        rw [show below = [] from hbelow] at htop
        cases htop
    | product =>
        rw [hlevel] at hbelow
        rw [hbelow top htop]
        rfl
    | factor => cases op <;> cases hlevel
  have hnone : below.takeWhile (yieldsTo op) = [] ∧ below.dropWhile (yieldsTo op) = below := by
    cases below with
    | nil => exact ⟨rfl, rfl⟩
    | cons top rest =>
        have htop := hstay top List.mem_cons_self
        simp [htop]
  simp only [Yard.step, List.takeWhile_append_of_pos hleave, List.dropWhile_append_of_pos hleave,
    hnone, List.append_nil]

/-- **A derived row in the middle of others.**  If nothing waits below it that binds as
tightly as its own operators, the row changes nothing below, and what leaves during the row
followed by what it leaves waiting is the listing of its tree. -/
theorem run_derives {level : Level} {tokens : List Token} {e : Expr}
    (h : Derives level tokens e) {yard : Yard} (hrests : level.Rests yard.waiting) :
    ∃ out above, yard.run tokens = .ok (out, ⟨above ++ yard.waiting, yard.enclosing⟩) ∧
      level.Leaves above ∧ out ++ above.map .operator = e.postorder := by
  induction h generalizing yard with
  | number n => exact ⟨[.number n], [], rfl, rfl, rfl⟩
  | identifier x => exact ⟨[.identifier x], [], rfl, rfl, rfl⟩
  | @group tokens e inner ih =>
      -- The group starts on an empty level, so whatever its row leaves is gone at its end.
      obtain ⟨out, above, hrun, -, hlisting⟩ :=
        @ih ⟨[], yard.waiting :: yard.enclosing⟩ rfl
      refine ⟨out ++ above.map .operator, [], ?_, rfl, by simpa using hlisting⟩
      have hopen : yard.run [.leftParen] = .ok ([], ⟨[], yard.waiting :: yard.enclosing⟩) :=
        Yard.run_singleton rfl
      have hclose : Yard.run ⟨above ++ [], yard.waiting :: yard.enclosing⟩ [.rightParen] =
          .ok (above.map .operator, yard) := by
        rw [List.append_nil]
        exact Yard.run_singleton rfl
      have hall := Yard.run_append_ok hopen (Yard.run_append_ok hrun hclose)
      simpa using hall
  | @single level tokens e only ih =>
      obtain ⟨out, above, hrun, hleaves, hlisting⟩ := ih hrests.tighter
      exact ⟨out, above, hrun, hleaves.of_tighter, hlisting⟩
  | @chain op first second left right before after ihl ihr =>
      obtain ⟨early, above, hfirst, habove, hleft⟩ := ihl hrests
      have hop : Yard.run ⟨above ++ yard.waiting, yard.enclosing⟩ [.operator op] =
          .ok (above.map .operator, ⟨op :: yard.waiting, yard.enclosing⟩) :=
        Yard.run_singleton (Yard.step_between habove hrests yard.enclosing)
      obtain ⟨late, kept, hsecond, hkept, hright⟩ :=
        @ihr ⟨op :: yard.waiting, yard.enclosing⟩ hrests.push
      refine ⟨early ++ (above.map .operator ++ late), kept ++ [op], ?_, hkept.push, ?_⟩
      · have hall := Yard.run_append_ok hfirst (Yard.run_append_ok hop hsecond)
        simpa using hall
      · rw [Expr.postorder, ← hleft, ← hright]
        simp

/-- **A row that the grammar derives becomes the listing of its tree.** -/
theorem arrange_of_derives {tokens : List Token} {e : Expr} (h : Derives .sum tokens e) :
    arrange tokens = .ok e.postorder := by
  obtain ⟨out, above, hrun, -, hlisting⟩ := @run_derives _ _ _ h Yard.empty rfl
  rw [arrange_of_run hrun rfl, ← hlisting]
  simp [Yard.empty]

/-! ## The value of a row of tokens -/

/-- The value of a row of tokens, which is arranged and then computed. -/
def compute (env : Environment) (tokens : List Token) : Except Error Int := do
  let row ← (arrange tokens).mapError .parse
  (evaluate env row).mapError .eval

/-- An expression has the value of its tokens. -/
theorem evaluate_eq_compute {source : Text} {tokens : List Token}
    (h : tokenize source = .ok tokens) (env : Environment) :
    Session.evaluate env source = compute env tokens := by
  rw [Session.evaluate, h]
  rfl

theorem compute_of_arrange {tokens row : List Token} (h : arrange tokens = .ok row)
    (env : Environment) : compute env tokens = (evaluate env row).mapError .eval := by
  rw [compute, h]
  rfl

/-- **A derived row has the value of its tree, and fails as the tree fails.** -/
theorem compute_of_derives {tokens : List Token} {e : Expr} (h : Derives .sum tokens e)
    (env : Environment) : compute env tokens = (e.value env).mapError .eval := by
  rw [compute_of_arrange (arrange_of_derives h), Expr.evaluate_postorder]

/-- **The rows with a value are those that become the listing of a tree with that value.** -/
theorem compute_eq_ok_iff {env : Environment} {tokens : List Token} {v : Int} :
    compute env tokens = .ok v ↔
      ∃ e : Expr, arrange tokens = .ok e.postorder ∧ e.value env = .ok v := by
  constructor
  · intro h
    cases hrow : arrange tokens with
    | error e =>
        rw [compute, hrow] at h
        cases h
    | ok row =>
        rw [compute_of_arrange hrow] at h
        cases hvalue : evaluate env row with
        | error e =>
            rw [hvalue] at h
            cases h
        | ok w =>
            rw [hvalue] at h
            have hw : w = v := Except.ok.inj h
            obtain ⟨e, rfl, he⟩ := evaluate_eq_ok_iff.1 hvalue
            exact ⟨e, rfl, hw ▸ he⟩
  · intro h
    obtain ⟨e, hrow, hvalue⟩ := h
    rw [compute_of_arrange hrow, Expr.evaluate_postorder, hvalue]
    rfl

end ReversePolish

end Calculator
