import Calculator.Proofs.Faults
import Calculator.Proofs.MissingParts

/-!
# A sentence and its tree

The grammar groups the operators of one level from the left and those of the
higher level first, and it leaves no choice: a row that it derives stands for
one tree.  The yard finds this tree without knowing of the grammar, for the row
that comes out of it is the listing of the tree.

Where no value stands right behind a value the converse holds as well, so of
these rows the yard turns no other one into the listing of a tree.

* `Derives.loosen`, `Derives.unique` — at whatever level a row is derived, it is a
  sentence, and of one tree only;
* `derives_of_arrange` — a row that becomes a listing is derived, unless a value
  stands right behind a value.
-/

namespace Calculator

open Token ReversePolish

namespace Derives

/-- A row that is derived at any level is a sentence. -/
theorem loosen {level : Level} {tokens : List Token} {e : Expr} (h : Derives level tokens e) :
    Derives .sum tokens e := by
  cases level with
  | sum => exact h
  | product => exact single h
  | factor => exact h.relax .sum

/-- **The grammar leaves no choice.**  A row is derived for one tree only. -/
theorem unique {level level' : Level} {tokens : List Token} {e e' : Expr}
    (h : Derives level tokens e) (h' : Derives level' tokens e') : e = e' := by
  have hrow : arrange tokens = .ok e.postorder := arrange_of_derives h.loosen
  rw [arrange_of_derives h'.loosen] at hrow
  exact (Expr.postorder_injective (Except.ok.inj hrow)).symm

end Derives

namespace ReversePolish

/-- **A row that becomes the listing of a tree is derived for this tree**, if no value stands right
behind a value in it. -/
theorem derives_of_arrange {tokens : List Token} {e : Expr} (hfree : JuxtapositionFree tokens)
    (h : arrange tokens = .ok e.postorder) : Derives .sum tokens e := by
  have hoperators : missingOperators tokens = 0 := missingOperators_eq_zero_iff.2 hfree
  have hoperands : missingOperands tokens = 0 := by
    rw [missing_eq_of_arrange h, hoperators]
  obtain ⟨other, hother⟩ := sentence_of_joints h hoperators hoperands
  have hsame : other = e := by
    have hrow := arrange_of_derives hother
    rw [h] at hrow
    exact (Expr.postorder_injective (Except.ok.inj hrow)).symm
  rwa [hsame] at hother

/-- **A sentence becomes the listing of its tree.**  Whatever its length and however deep its
groups are nested, a row that the grammar derives for a tree is arranged into the listing of this
tree, and it is derived for no other one.  Of the rows in which no value stands right behind a
value, only those that are derived for the tree become its listing. -/
theorem sentence_becomes_its_listing {tokens : List Token} {e : Expr}
    (h : Derives .sum tokens e) :
    arrange tokens = .ok e.postorder ∧
      (∀ level other, Derives level tokens other → other = e) ∧
      ∀ row, JuxtapositionFree row → arrange row = .ok e.postorder → Derives .sum row e := by
  refine ⟨arrange_of_derives h, ?_, ?_⟩
  · intro level other hother
    exact hother.unique h
  · intro row hfree hrow
    exact derives_of_arrange hfree hrow

/-- `8-(1-2)*4/a-5`: a group, two levels, and operators of one level in a row. -/
theorem sentence_becomes_its_listing_mixed :
    Derives .sum
        [.number 8, .operator .sub, .leftParen, .number 1, .operator .sub, .number 2, .rightParen,
          .operator .mul, .number 4, .operator .div, .identifier ['a'], .operator .sub, .number 5]
        (.binary .sub
          (.binary .sub (.number 8)
            (.binary .div
              (.binary .mul (.binary .sub (.number 1) (.number 2)) (.number 4))
              (.identifier ['a'])))
          (.number 5)) ∧
      arrange
        [.number 8, .operator .sub, .leftParen, .number 1, .operator .sub, .number 2, .rightParen,
          .operator .mul, .number 4, .operator .div, .identifier ['a'], .operator .sub, .number 5] =
        .ok [.number 8, .number 1, .number 2, .operator .sub, .number 4, .operator .mul,
          .identifier ['a'], .operator .div, .operator .sub, .number 5, .operator .sub] := by
  have hnumber : ∀ (n : Int) (level : Level), Derives level [.number n] (.number n) :=
    fun n level => (Derives.number n).relax level
  have hinner : Derives .sum [.number 1, .operator .sub, .number 2]
      (.binary .sub (.number 1) (.number 2)) :=
    @Derives.chain .sub _ _ _ _ (hnumber 1 .sum) (hnumber 2 .product)
  have hproduct : Derives .product
      [.leftParen, .number 1, .operator .sub, .number 2, .rightParen, .operator .mul, .number 4]
      (.binary .mul (.binary .sub (.number 1) (.number 2)) (.number 4)) :=
    @Derives.chain .mul _ _ _ _ ((Derives.group hinner).relax .product) (hnumber 4 .factor)
  have hquotient := @Derives.chain .div _ _ _ _ hproduct (Derives.identifier ['a'])
  have hfirst := @Derives.chain .sub _ _ _ _ (hnumber 8 .sum) hquotient
  have hall := @Derives.chain .sub _ _ _ _ hfirst (hnumber 5 .product)
  exact ⟨hall, (sentence_becomes_its_listing hall).1⟩

end ReversePolish

end Calculator
