import Calculator.Proofs.Operands
import Calculator.Proofs.Faults

/-!
# In which order tokens leave the yard

A row is refused only for its parentheses, whatever the other tokens are.  From
any other row each token leaves once, the parentheses apart, and some leave later
than they came: an operand leaves at once, and an operator after a while.

To tell one occurrence of an operator from another, each token carries its
**place** in the row.  What waits in the yard came earlier than the next token, so
whatever leaves before an operand came before it.  That is the one invariant of a
run here, and it says of the row that comes out that the operands keep their order
and that no operator has moved in front of an operand that came before it.

No parenthesis leaves at all, so the machine never comes upon one.

* `Yard.step_placed` — what one token does, occurrence by occurrence;
* `Yard.run_placed`, `exists_places` — whatever leaves before an operand came before it;
* `operands_of_places` — so the operands keep their order;
* `not_balanced_iff` — what it takes to be refused;
* `evaluate_ne_unexpectedToken` — what the machine does not come upon.
-/

namespace Calculator

open Token

/-- A row is not balanced if a front part closes more than it opens, or if not as many marks open
as close. -/
theorem not_balanced_iff {α : Type} [DecidableEq α] {opening closing : α} {row : List α} :
    ¬Balanced opening closing row ↔
      (∃ part, part <+: row ∧ part.count opening < part.count closing) ∨
        row.count opening ≠ row.count closing := by
  constructor
  · intro h
    by_contra hnone
    push Not at hnone
    refine h ⟨fun part rest hsplit => ?_, hnone.2.symm⟩
    exact hnone.1 part ⟨rest, hsplit⟩
  · intro h hbalanced
    rcases h with ⟨part, ⟨rest, hsplit⟩, hmore⟩ | htotal
    · have hfront := hbalanced.front part rest hsplit
      omega
    · exact htotal hbalanced.total.symm

namespace ReversePolish

/-! ## Tokens and their places -/

/-- Whatever stands in front of an operand came before it.  Each token goes with its place. -/
def InTurn (places : List (Token × Nat)) : Prop :=
  places.Pairwise fun s t => t.1.isOperand → s.2 < t.2

theorem inTurn_of_no_operand {places : List (Token × Nat)}
    (h : ∀ s ∈ places, s.1.isOperand = false) : InTurn places := by
  refine List.pairwise_of_forall_mem_list fun s _ t ht hoperand => ?_
  rw [h t ht] at hoperand
  cases hoperand

/-- A row that another one is rearranged into. -/
structure Rearranges (tokens row : List Token) : Prop where
  /-- No parenthesis is left. -/
  no_paren : ∀ t ∈ row, t.isParen = false
  /-- The numbers and names are the same, in the same order. -/
  operands : row.filter isOperand = tokens.filter isOperand
  /-- Every operator stands in it as often as before. -/
  operators : ∀ op, row.count (operator op) = tokens.count (operator op)
  /-- Each token can be traced to its place in the row that went in, and those that stand in front
  of an operand came before it: an operator stands behind all operands that preceded it. -/
  places : ∃ places : List (Token × Nat), places.map Prod.fst = row ∧
    places.Perm (tokens.zipIdx.filter fun s => !s.1.isParen) ∧ InTurn places

namespace Yard

/-- What waits in a yard, each operator with its place, and all of them before a certain place. -/
structure HeldBefore (place : Nat) (yard : Yard) (held : List (Token × Nat)) : Prop where
  tokens : held.map Prod.fst = yard.held
  earlier : ∀ s ∈ held, s.2 < place

theorem HeldBefore.isOperand {place : Nat} {yard : Yard} {held : List (Token × Nat)}
    (h : HeldBefore place yard held) {s : Token × Nat} (hs : s ∈ held) : s.1.isOperand = false :=
  isOperand_of_mem_held (h.tokens ▸ List.mem_map_of_mem hs)

/-- **One token**, at its place.  Whatever leaves came at this place or before it, and an operand
leaves behind all that leaves with it. -/
theorem step_placed {yard next : Yard} {token : Token} {leaving : List Token} {place : Nat}
    {held : List (Token × Nat)} (h : yard.step token = .ok (leaving, next))
    (hheld : HeldBefore place yard held) :
    ∃ left kept, left.map Prod.fst = leaving ∧ HeldBefore (place + 1) next kept ∧
      (left ++ kept).Perm ([(token, place)].filter (fun s => !s.1.isParen) ++ held) ∧
      InTurn left := by
  obtain ⟨front, back, hsplit, rfl, hnext⟩ := step_held h
  obtain ⟨gone, stay, rfl, rfl, rfl⟩ := List.map_eq_append_iff.1 (hheld.tokens.trans hsplit)
  have hhere : ∀ {p : Token × Nat → Bool}, ∀ s ∈ [(token, place)].filter p, s = (token, place) :=
    fun s hs => List.mem_singleton.1 (List.mem_filter.1 hs).1
  refine ⟨gone ++ [(token, place)].filter (·.1.isOperand),
    [(token, place)].filter (·.1.isOperator) ++ stay, ?_, ⟨?_, ?_⟩, ?_, ?_⟩
  · rw [List.map_append]
    cases token <;> rfl
  · rw [hnext, List.map_append]
    cases token <;> rfl
  · intro s hs
    rcases List.mem_append.1 hs with hnew | hstay
    · rw [hhere s hnew]
      exact Nat.lt_succ_self place
    · exact Nat.lt_succ_of_lt (hheld.earlier s (List.mem_append_right gone hstay))
  · have htoken : [(token, place)].filter (fun s => !s.1.isParen) =
        [(token, place)].filter (·.1.isOperand) ++ [(token, place)].filter (·.1.isOperator) := by
      cases token <;> rfl
    rw [htoken, List.perm_iff_count]
    intro s
    simp only [List.count_append]
    omega
  · refine List.pairwise_append.2 ⟨?_, ?_, ?_⟩
    · exact inTurn_of_no_operand fun s hs => hheld.isOperand (List.mem_append_left stay hs)
    · exact (List.pairwise_singleton _ _).sublist List.filter_sublist
    · intro s hs t ht _
      rw [hhere t ht]
      exact hheld.earlier s (List.mem_append_left stay hs)

/-- **A row of tokens**, from a place on.  What leaves during it and what waits at its end is what
waited and the row, and whatever is in front of an operand then came before it. -/
theorem run_placed {yard last : Yard} {tokens out : List Token} {place : Nat}
    {held : List (Token × Nat)} (h : yard.run tokens = .ok (out, last))
    (hheld : HeldBefore place yard held) :
    ∃ left kept, left.map Prod.fst = out ∧ kept.map Prod.fst = last.held ∧
      (left ++ kept).Perm ((tokens.zipIdx place).filter (fun s => !s.1.isParen) ++ held) ∧
      InTurn (left ++ kept) := by
  induction tokens generalizing yard out place held with
  | nil =>
      cases h
      exact ⟨[], held, rfl, hheld.tokens, List.Perm.refl _,
        inTurn_of_no_operand fun s hs => hheld.isOperand hs⟩
  | cons token tokens ih =>
      obtain ⟨leaving, next, later, hstep, hrun, rfl⟩ := run_cons_ok h
      obtain ⟨first, between, hfirst, hbetween, hperm, hturn⟩ := step_placed hstep hheld
      obtain ⟨rest, kept, hrest, hkept, hperm', hturn'⟩ := ih hrun hbetween
      refine ⟨first ++ rest, kept, ?_, hkept, ?_, ?_⟩
      · rw [List.map_append, hfirst, hrest]
      · have hrow : ((token :: tokens).zipIdx place).filter (fun s => !s.1.isParen) =
            [(token, place)].filter (fun s => !s.1.isParen) ++
              (tokens.zipIdx (place + 1)).filter (fun s => !s.1.isParen) := by
          rw [List.zipIdx_cons, ← List.singleton_append, List.filter_append]
        rw [hrow]
        rw [List.perm_iff_count] at hperm hperm' ⊢
        intro s
        have hnow := hperm s
        have hlater := hperm' s
        simp only [List.count_append] at hnow hlater ⊢
        omega
      · rw [List.append_assoc]
        refine List.pairwise_append.2 ⟨hturn, hturn', fun s hs t ht hoperand => ?_⟩
        -- What leaves now came by this place, and an operand that leaves later came after it.
        have hearly : s.2 ≤ place := by
          rcases List.mem_append.1 (hperm.mem_iff.1 (List.mem_append_left between hs)) with
            hnew | hold
          · rw [List.mem_singleton.1 (List.mem_filter.1 hnew).1]
          · exact Nat.le_of_lt (hheld.earlier s hold)
        have hlate : place + 1 ≤ t.2 := by
          rcases List.mem_append.1 (hperm'.mem_iff.1 ht) with hrow | hwaiting
          · exact List.le_snd_of_mem_zipIdx (List.mem_filter.1 hrow).1
          · rw [hbetween.isOperand hwaiting] at hoperand
            cases hoperand
        omega

end Yard

/-- **Every row that is not refused is rearranged in turn.** -/
theorem exists_places {tokens row : List Token} (h : arrange tokens = .ok row) :
    ∃ places : List (Token × Nat), places.map Prod.fst = row ∧
      places.Perm (tokens.zipIdx.filter fun s => !s.1.isParen) ∧ InTurn places := by
  obtain ⟨out, last, hrun, hclosed, rfl⟩ := arrange_ok h
  have hnone : Yard.HeldBefore 0 Yard.empty [] := ⟨rfl, by simp⟩
  obtain ⟨left, kept, hleft, hkept, hperm, hturn⟩ := Yard.run_placed hrun hnone
  refine ⟨left ++ kept, ?_, ?_, hturn⟩
  · rw [List.map_append, hleft, hkept, Yard.held, hclosed, List.flatten_nil, List.append_nil]
  · rwa [List.append_nil] at hperm

/-- Places increase along a row. -/
theorem zipIdx_pairwise (tokens : List Token) (place : Nat) :
    (tokens.zipIdx place).Pairwise fun s t => s.2 < t.2 := by
  induction tokens generalizing place with
  | nil => exact List.Pairwise.nil
  | cons token tokens ih =>
      rw [List.zipIdx_cons, List.pairwise_cons]
      exact ⟨fun _ ht => List.le_snd_of_mem_zipIdx ht, ih (place + 1)⟩

/-- **Operands that leave in turn keep their order**: by their places they are sorted before and
after, so it is the same order. -/
theorem operands_of_places {tokens row : List Token} {places : List (Token × Nat)}
    (hrow : places.map Prod.fst = row)
    (hperm : places.Perm (tokens.zipIdx.filter fun s => !s.1.isParen)) (hturn : InTurn places) :
    row.filter isOperand = tokens.filter isOperand := by
  have hsame : (places.filter (isOperand ∘ Prod.fst)).Perm
      (tokens.zipIdx.filter (isOperand ∘ Prod.fst)) := by
    have hnone : (tokens.zipIdx.filter fun s => !s.1.isParen).filter (isOperand ∘ Prod.fst) =
        tokens.zipIdx.filter (isOperand ∘ Prod.fst) := by
      rw [List.filter_filter]
      refine List.filter_congr fun s _ => ?_
      rcases s with ⟨t, place⟩
      cases t <;> rfl
    rw [← hnone]
    exact hperm.filter _
  have hafter : (places.filter (isOperand ∘ Prod.fst)).Pairwise fun s t => s.2 < t.2 := by
    refine (hturn.filter _).imp_of_mem fun _ ht hlt => hlt ?_
    exact (List.mem_filter.1 ht).2
  have hbefore : (tokens.zipIdx.filter (isOperand ∘ Prod.fst)).Pairwise fun s t => s.2 < t.2 :=
    (zipIdx_pairwise tokens 0).filter _
  have heq : places.filter (isOperand ∘ Prod.fst) = tokens.zipIdx.filter (isOperand ∘ Prod.fst) :=
    List.Perm.eq_of_pairwise (fun s t _ _ hst hts => absurd hst (Nat.lt_asymm hts))
      hafter hbefore hsame
  calc row.filter isOperand
      = (places.filter (isOperand ∘ Prod.fst)).map Prod.fst := by rw [← hrow, List.filter_map]
    _ = (tokens.zipIdx.filter (isOperand ∘ Prod.fst)).map Prod.fst := by rw [heq]
    _ = tokens.filter isOperand := by rw [← List.filter_map, List.zipIdx_map_fst]

/-- **What is made of a row that is not refused.** -/
theorem rearranges_of_arrange {tokens row : List Token} (h : arrange tokens = .ok row) :
    Rearranges tokens row := by
  have hperm := arrange_perm h
  obtain ⟨places, hrow, hplaces, hturn⟩ := exists_places h
  refine ⟨fun t ht => ?_, operands_of_places hrow hplaces hturn, fun op => ?_,
    places, hrow, hplaces, hturn⟩
  · simpa using (List.mem_filter.1 (hperm.mem_iff.1 ht)).2
  · rw [hperm.count_eq, List.count_filter rfl]

/-! ## What is refused, and what the machine never meets -/

/-- A row without parentheses never fails for one. -/
theorem evaluate_ne_unexpectedToken {row : List Token} (h : ∀ t ∈ row, t.isParen = false)
    (env : Environment) (t : Token) : evaluate env row ≠ .error (.unexpectedToken t) := by
  intro hvalue
  obtain ⟨front, back, values, rfl, -, hparen⟩ :=
    (evaluate_eq_fault_iff (by simp) fun _ _ => fault_unexpectedToken_iff).1 hvalue
  rw [h t (List.mem_append_right front List.mem_cons_self)] at hparen
  cases hparen

/-- What is arranged never fails for a parenthesis. -/
theorem evaluate_arranged_ne_unexpectedToken {tokens row : List Token}
    (h : arrange tokens = .ok row) (env : Environment) (t : Token) :
    evaluate env row ≠ .error (.unexpectedToken t) :=
  evaluate_ne_unexpectedToken (rearranges_of_arrange h).no_paren env t

/-- **A row is refused for its parentheses, or rearranged.**  It is refused exactly if a front part
closes more groups than it opens or if the row does not close as many as it opens, whatever its
other tokens are, and the cause is always the same.  Otherwise nothing is lost, nothing is added,
the operands keep their order, and every operator stands behind all operands that preceded it.  So
neither a row that was arranged nor any text nor any line ever fails for a token that the machine
cannot execute. -/
theorem refused_or_rearranged (tokens : List Token) :
    (∀ cause, arrange tokens = .error cause ↔ cause = .unbalancedParentheses ∧
        ((∃ part, part <+: tokens ∧ part.count leftParen < part.count rightParen) ∨
          tokens.count leftParen ≠ tokens.count rightParen)) ∧
      (∀ row, arrange tokens = .ok row → Rearranges tokens row ∧
        ∀ env t, evaluate env row ≠ .error (.unexpectedToken t)) ∧
      ∀ env t, (∀ source, Session.evaluate env source ≠ .error (.eval (.unexpectedToken t))) ∧
        ∀ line, (Session.execute env line).1 ≠ .error (.eval (.unexpectedToken t)) := by
  refine ⟨fun cause => ?_, fun row hrow => ?_, fun env t => ⟨fun source h => ?_, fun line h => ?_⟩⟩
  · rw [arrange_eq_error_iff, exists_arrange_iff, not_balanced_iff]
  · exact ⟨rearranges_of_arrange hrow, evaluate_arranged_ne_unexpectedToken hrow⟩
  · obtain ⟨tokens, row, hrow, hvalue⟩ := Session.evaluate_eval_error h
    exact evaluate_arranged_ne_unexpectedToken hrow env t hvalue
  · obtain ⟨x, hquery⟩ | ⟨tokens, row, hrow, hvalue⟩ := Session.execute_eval_error h
    · cases (Environment.query_eq_error_iff.1 hquery).2
    · exact evaluate_arranged_ne_unexpectedToken hrow env t hvalue

/-- A row that closes a group before it opens one, with as many of the one as of the other; and a
row that is no sentence, `+ (1 2 * -) a /`. -/
theorem refused_or_rearranged_malformed :
    arrange [.number 1, .rightParen, .operator .add, .leftParen] = .error .unbalancedParentheses ∧
      arrange
        [.operator .add, .leftParen, .number 1, .number 2, .operator .mul, .operator .sub,
          .rightParen, .identifier ['a'], .operator .div] =
        .ok [.number 1, .number 2, .operator .mul, .operator .sub, .identifier ['a'],
          .operator .div, .operator .add] ∧
      Rearranges
        [.operator .add, .leftParen, .number 1, .number 2, .operator .mul, .operator .sub,
          .rightParen, .identifier ['a'], .operator .div]
        [.number 1, .number 2, .operator .mul, .operator .sub, .identifier ['a'], .operator .div,
          .operator .add] := by
  have hearly : ∃ part, part <+: [Token.number 1, .rightParen, .operator .add, .leftParen] ∧
      part.count leftParen < part.count rightParen :=
    ⟨[.number 1, .rightParen], ⟨[.operator .add, .leftParen], rfl⟩, by decide⟩
  have hrow : arrange
      [.operator .add, .leftParen, .number 1, .number 2, .operator .mul, .operator .sub,
        .rightParen, .identifier ['a'], .operator .div] =
      .ok [.number 1, .number 2, .operator .mul, .operator .sub, .identifier ['a'],
        .operator .div, .operator .add] := rfl
  refine ⟨?_, hrow, ((refused_or_rearranged _).2.1 _ hrow).1⟩
  exact ((refused_or_rearranged _).1 _).2 ⟨rfl, Or.inl hearly⟩

end ReversePolish

end Calculator
