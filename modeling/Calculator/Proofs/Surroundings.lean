import Calculator.Proofs.Operands

/-!
# What leaves around a group

What stands behind a row that passes through the yard finds the yard as the row
found it.  So what leaves before the row and what leaves after it are the same
whichever row it is, and what leaves during it comes in between in one piece.
Neither side has to be an expression: operators may wait and groups may be open
where the row starts, and any tokens may follow it.

A name passes, and so does a row in parentheses that is arranged on its own.  Such
a group is therefore an operand like any name.

* `arrange_between` — a row that passes, between any two others;
* `notMem_of_around` — a name that stands around the row on neither side leaves on
  neither side.
-/

namespace Calculator

open Token

namespace ReversePolish

namespace Yard

/-- A name that leaves during a row stands in the row: it did not wait before. -/
theorem identifier_mem_of_run {yard last : Yard} {tokens out : List Token} {x : Text}
    (h : yard.run tokens = .ok (out, last)) (hx : identifier x ∈ out) : identifier x ∈ tokens := by
  have hall := (run_perm h).mem_iff.1 (List.mem_append_left last.held hx)
  rcases List.mem_append.1 hall with hrow | hheld
  · exact (List.mem_filter.1 hrow).1
  · cases isOperand_of_mem_held hheld

end Yard

/-- What leaves while the tokens in front of a row are taken in, and what leaves behind the row
until the yard is empty, if the row passes through the yard. -/
def Around (front back before after : List Token) : Prop :=
  ∃ yard late last, Yard.empty.run front = .ok (before, yard) ∧ yard.run back = .ok (late, last) ∧
    last.enclosing = [] ∧ after = late ++ last.waiting.map operator

/-- **A row that passes, between any two others.**  What leaves during it comes between what leaves
around it, and that does not depend on the row. -/
theorem arrange_between {middle out : List Token} (h : Yard.Passes middle out)
    (front back row : List Token) :
    arrange (front ++ middle ++ back) = .ok row ↔
      ∃ before after, Around front back before after ∧ row = before ++ out ++ after := by
  constructor
  · intro hrow
    obtain ⟨all, last, hrun, hclosed, rfl⟩ := arrange_ok hrow
    obtain ⟨early, reached, late, hfirst, hback, rfl⟩ := Yard.run_append_cases hrun
    obtain ⟨before, yard, during, hfront, hmiddle, rfl⟩ := Yard.run_append_cases hfirst
    have hpass := hmiddle.symm.trans (h yard)
    cases hpass
    refine ⟨before, late ++ last.waiting.map operator, ?_, by simp⟩
    exact ⟨reached, late, last, hfront, hback, hclosed, rfl⟩
  · intro haround
    obtain ⟨before, _, ⟨yard, late, last, hfront, hback, hclosed, rfl⟩, rfl⟩ := haround
    have hall := Yard.run_append_ok (Yard.run_append_ok hfront (h yard)) hback
    rw [arrange_of_run hall hclosed]
    simp

/-- A name that stands on neither side leaves on neither side. -/
theorem notMem_of_around {front back before after : List Token} {x : Text}
    (h : Around front back before after) (hfront : identifier x ∉ front)
    (hback : identifier x ∉ back) : identifier x ∉ before ∧ identifier x ∉ after := by
  obtain ⟨yard, late, last, hfirst, hsecond, -, rfl⟩ := h
  refine ⟨fun hx => hfront (Yard.identifier_mem_of_run hfirst hx), fun hx => ?_⟩
  rcases List.mem_append.1 hx with hlate | hwaiting
  · exact hback (Yard.identifier_mem_of_run hsecond hlate)
  · obtain ⟨op, -, hop⟩ := List.mem_map.1 hwaiting
    cases hop

/-- **A group is an operand.**  Between any two rows of tokens, a row in parentheses that is
arranged on its own does what a name does there that stands in neither of them.  The whole is
arranged exactly if it is with the name, and otherwise refused for the same cause.  With the name,
the name leaves once; with the group, all that the group is arranged into leaves at that place, in
one piece, and what leaves before and after is the same. -/
theorem group_is_an_operand {tokens row front back : List Token} {x : Text}
    (hrow : arrange tokens = .ok row) (hfront : identifier x ∉ front)
    (hback : identifier x ∉ back) :
    ((∃ out, arrange (front ++ group tokens ++ back) = .ok out) ↔
        ∃ out, arrange (front ++ [identifier x] ++ back) = .ok out) ∧
      (∀ cause, arrange (front ++ group tokens ++ back) = .error cause ↔
        arrange (front ++ [identifier x] ++ back) = .error cause) ∧
      ∀ out, arrange (front ++ [identifier x] ++ back) = .ok out →
        ∃ before after, out = before ++ [identifier x] ++ after ∧
          identifier x ∉ before ∧ identifier x ∉ after ∧
          arrange (front ++ group tokens ++ back) = .ok (before ++ row ++ after) := by
  have hgroup := arrange_between (Yard.passes_group hrow) front back
  have hname := arrange_between (Yard.passes_identifier x) front back
  have hboth : (∃ out, arrange (front ++ group tokens ++ back) = .ok out) ↔
      ∃ out, arrange (front ++ [identifier x] ++ back) = .ok out := by
    constructor
    · intro hout
      obtain ⟨out, hout⟩ := hout
      obtain ⟨before, after, haround, -⟩ := (hgroup out).1 hout
      exact ⟨_, (hname _).2 ⟨before, after, haround, rfl⟩⟩
    · intro hout
      obtain ⟨out, hout⟩ := hout
      obtain ⟨before, after, haround, -⟩ := (hname out).1 hout
      exact ⟨_, (hgroup _).2 ⟨before, after, haround, rfl⟩⟩
  refine ⟨hboth, fun cause => ?_, fun out hout => ?_⟩
  · rw [arrange_eq_error_iff, arrange_eq_error_iff, hboth]
  · obtain ⟨before, after, haround, rfl⟩ := (hname out).1 hout
    obtain ⟨hbefore, hafter⟩ := notMem_of_around haround hfront hback
    exact ⟨before, after, rfl, hbefore, hafter, (hgroup _).2 ⟨before, after, haround, rfl⟩⟩

/-- A group that is no sentence, `(1 2+*)`, between rows that are none: `-(3*` and `)4/`. -/
theorem group_is_an_operand_malformed :
    arrange [number 1, number 2, operator .add, operator .mul] =
        .ok [number 1, number 2, operator .mul, operator .add] ∧
      arrange ([operator .sub, leftParen, number 3, operator .mul] ++ [identifier ['x']] ++
          [rightParen, number 4, operator .div]) =
        .ok [number 3, identifier ['x'], operator .mul, number 4, operator .div, operator .sub] ∧
      ∃ before after,
        [number 3, identifier ['x'], operator .mul, number 4, operator .div, operator .sub] =
          before ++ [identifier ['x']] ++ after ∧
        identifier ['x'] ∉ before ∧ identifier ['x'] ∉ after ∧
        arrange ([operator .sub, leftParen, number 3, operator .mul] ++
            group [number 1, number 2, operator .add, operator .mul] ++
            [rightParen, number 4, operator .div]) =
          .ok (before ++ [number 1, number 2, operator .mul, operator .add] ++ after) := by
  have hrow : arrange [number 1, number 2, operator .add, operator .mul] =
      .ok [number 1, number 2, operator .mul, operator .add] := rfl
  have hfront : identifier ['x'] ∉ [operator .sub, leftParen, number 3, operator .mul] := by
    decide
  have hback : identifier ['x'] ∉ [rightParen, number 4, operator .div] := by decide
  have hname : arrange ([operator .sub, leftParen, number 3, operator .mul] ++
        [identifier ['x']] ++ [rightParen, number 4, operator .div]) =
      .ok [number 3, identifier ['x'], operator .mul, number 4, operator .div,
        operator .sub] := rfl
  exact ⟨hrow, hname, (group_is_an_operand hrow hfront hback).2.2 _ hname⟩

end ReversePolish

end Calculator
