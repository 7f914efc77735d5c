import Calculator.Proofs.MissingParts
import Calculator.Proofs.RoundTrip

/-!
# Signs that merge with an operator

A negative number right behind a plus or a minus is written as two signs in a
row, and collapsing makes one of them: of `a - -n * b` it makes `a + n * b`.
The tokens of the collapsed text are then not those that were written.  They
stand for another tree, in which the operator is the opposite one and the
number the positive one, at the front of a product.

The sign of the first factor of a product is the sign of the product, since a
quotient is cut off toward zero on both sides alike, so the other tree has the
same value, and fails for the same reason.

* `Derives.negated` — the first number of a product may take the opposite sign;
* `Derives.collapsed` — the collapsed spelling of a derived row is the spelling
  of a canonical row, which stands for a tree with the same value.
-/

namespace Calculator

namespace Operator

/-- The operator that a minus sign behind it makes of a plus or a minus. -/
def opposite : Operator → Operator
  | add => sub
  | sub => add
  | op => op

theorem level_opposite (op : Operator) : op.opposite.level = op.level := by
  cases op <;> rfl

/-- The opposite operator on the opposite number. -/
theorem apply_opposite {op : Operator} (h : op.level = .sum) (left right : Int) :
    op.opposite.apply left (-right) = op.apply left right := by
  cases op with
  | add => exact congrArg Except.ok (by omega)
  | sub => exact congrArg Except.ok (by omega)
  | mul => cases h
  | div => cases h

/-- The sign of a left factor is the sign of a product and of a quotient. -/
theorem apply_neg {op : Operator} (h : op.level = .product) (left right : Int) :
    op.apply (-left) right = (op.apply left right).map Neg.neg := by
  cases op with
  | add => cases h
  | sub => cases h
  | mul => exact congrArg Except.ok (Int.neg_mul left right)
  | div =>
      by_cases hright : right = 0
      · rw [hright]
        rfl
      · simp only [apply, if_neg hright]
        exact congrArg Except.ok (Int.neg_tdiv left right)

/-- A plus or a minus is written like a sign, which merges with a minus behind it. -/
theorem symbol_of_sum {op : Operator} (h : op.level = .sum) :
    ∃ s : Sign, op.symbol = s.symbol ∧ op.opposite.symbol = (s.mul .minus).symbol := by
  cases op with
  | add => exact ⟨.plus, rfl, rfl⟩
  | sub => exact ⟨.minus, rfl, rfl⟩
  | mul => cases h
  | div => cases h

end Operator

open Token

namespace Derives

/-- A derived row starts with a token that starts an operand. -/
theorem starts {level : Level} {tokens : List Token} {e : Expr} (h : Derives level tokens e) :
    ∃ t rest, tokens = t :: rest ∧ t.startsOperand := by
  induction h with
  | number n => exact ⟨_, _, rfl, rfl⟩
  | identifier x => exact ⟨_, _, rfl, rfl⟩
  | group inner => exact ⟨_, _, rfl, rfl⟩
  | single only ih => exact ih
  | chain before after ihl ihr =>
      obtain ⟨t, rest, rfl, ht⟩ := ihl
      exact ⟨t, _, rfl, ht⟩

/-- No operand is expected behind a derived row. -/
theorem ends {level : Level} {tokens : List Token} {e : Expr} (h : Derives level tokens e) :
    ∀ t ∈ tokens.getLast?, t.awaitsOperand = false := by
  induction h with
  | number n => simp [awaitsOperand]
  | identifier x => simp [awaitsOperand]
  | group inner =>
      rw [List.getLast?_concat]
      intro t ht
      rw [← Option.some.inj ht]
      rfl
  | single only ih => exact ih
  | chain before after ihl ihr =>
      rw [List.getLast?_append_of_ne_nil _ (by simp), List.getLast?_cons_of_ne_nil after.ne_nil]
      exact ihr

/-- **The first number of a product may take the opposite sign**, and so does the value. -/
theorem negated {level : Level} {n : Int} {rest : List Token} {e : Expr}
    (h : Derives level (.number n :: rest) e) (hlevel : level ≠ .sum) :
    ∃ e', Derives level (.number (-n) :: rest) e' ∧
      ∀ env, e'.value env = (e.value env).map Neg.neg := by
  -- The number stays in front on the way down the left operands, and below a product no
  -- operand is a sum outside of parentheses.
  generalize hrow : Token.number n :: rest = row at h
  induction h generalizing rest with
  | number m =>
      obtain ⟨hn, rfl⟩ := List.cons.inj hrow
      cases hn
      exact ⟨_, number (-n), fun env => rfl⟩
  | identifier x => cases (List.cons.inj hrow).1
  | group inner => cases (List.cons.inj hrow).1
  | @single level row e only ih =>
      have htighter : level.tighter ≠ .sum := by cases level <;> simp [Level.tighter]
      obtain ⟨e', hderives, hvalue⟩ := ih htighter hrow
      exact ⟨e', single hderives, hvalue⟩
  | @chain op first second left right before after ihl ihr =>
      have hop : op.level = .product := by
        cases op <;> simp [Operator.level] at hlevel ⊢
      obtain ⟨t, front, rfl, -⟩ := before.starts
      obtain ⟨rfl, rfl⟩ := List.cons.inj hrow
      obtain ⟨left', hderives, hvalue⟩ := ihl hlevel rfl
      refine ⟨.binary op left' right, chain hderives after, fun env => ?_⟩
      rw [Expr.value, Expr.value, hvalue]
      cases left.value env with
      | error cause => rfl
      | ok l =>
          cases right.value env with
          | error cause => rfl
          | ok r => exact Operator.apply_neg hop l r

end Derives

/-! ## Canonical rows that are put together -/

namespace Token

theorem isSign_operator_iff {op : Operator} : (operator op).isSign ↔ op.level = .sum := by
  cases op <;> simp [isSign, Operator.level]

theorem canonical_singleton {t : Token} (h : ∀ x, t = identifier x → x.isIdentifier) :
    Canonical [t] := by
  refine canonical_iff.2 ⟨?_, List.IsChain.singleton t, settled_cons_iff.2 ⟨?_, ?_, trivial⟩⟩
  · intro x hx
    exact h x (List.mem_singleton.1 hx).symm
  · intro n htoken hn
    rfl
  · intro hexpected htoken n hhead
    cases hhead

/-- Behind a row that ends with an operand, a row is settled as one behind an operand. -/
theorem Settled.append {expected : Bool} {front back : List Token} (h : Settled expected front)
    (hne : front ≠ []) (hends : ∀ t ∈ front.getLast?, t.awaitsOperand = false)
    (hback : Settled false back) : Settled expected (front ++ back) := by
  induction front generalizing expected with
  | nil => exact absurd rfl hne
  | cons token front ih =>
      obtain ⟨hnegative, hsub, hrest⟩ := settled_cons_iff.1 h
      cases front with
      | nil =>
          have hlast : token.awaitsOperand = false := hends token rfl
          refine settled_cons_iff.2 ⟨hnegative, ?_, hlast ▸ hback⟩
          intro hexpected htoken
          rw [htoken] at hlast
          cases hlast
      | cons next front =>
          refine settled_cons_iff.2 ⟨hnegative, hsub, ih hrest (by simp) fun t ht => ?_⟩
          exact hends t (by rw [List.getLast?_cons_cons]; exact ht)

/-- A canonical row may go on with an operator and a canonical row, unless two signs meet. -/
theorem Canonical.chain {op : Operator} {front back : List Token} (hfront : Canonical front)
    (hne : front ≠ []) (hends : ∀ t ∈ front.getLast?, t.awaitsOperand = false)
    (hback : Canonical back) (hstarts : ∀ t ∈ back.head?, t.startsOperand)
    (hsigns : op.level = .sum → ∀ n, back.head? = some (number n) → 0 ≤ n) :
    Canonical (front ++ operator op :: back) := by
  obtain ⟨hfrontLetters, hfrontParted, hfrontSettled⟩ := canonical_iff.1 hfront
  obtain ⟨hbackLetters, hbackParted, hbackSettled⟩ := canonical_iff.1 hback
  refine canonical_iff.2 ⟨?_, ?_, ?_⟩
  · intro x hx
    rcases List.mem_append.1 hx with hmem | hmem
    · exact hfrontLetters x hmem
    · exact hbackLetters x (by simpa using hmem)
  · have hbehind : (operator op :: back).IsChain Parted := by
      refine hbackParted.cons fun t ht => ⟨by simp, by simp, ?_⟩
      intro hboth
      obtain ⟨hop, hstart⟩ := hboth
      have hlevel : op.level = .sum := isSign_operator_iff.1 hop
      cases t with
      | number n =>
          have hn := hsigns hlevel n ht
          exact absurd (of_decide_eq_true hstart) (Int.not_lt.2 hn)
      | operator op => cases hstarts _ ht
      | _ => cases hstart
    refine hfrontParted.append hbehind fun s hs t ht => ?_
    rw [List.head?_cons, Option.mem_some_iff] at ht
    subst ht
    have hlast := hends s hs
    refine ⟨by simp, by simp, ?_⟩
    cases s with
    | operator op => cases hlast
    | _ => simp [isSign]
  · refine hfrontSettled.append hne hends (settled_cons_iff.2 ⟨by simp, by simp, ?_⟩)
    exact hbackSettled

/-- A canonical row may stand in parentheses. -/
theorem Canonical.group {inner : List Token} (h : Canonical inner) (hne : inner ≠ [])
    (hends : ∀ t ∈ inner.getLast?, t.awaitsOperand = false) :
    Canonical (leftParen :: inner ++ [rightParen]) := by
  obtain ⟨hletters, hparted, hsettled⟩ := canonical_iff.1 h
  refine canonical_iff.2 ⟨?_, ?_, ?_⟩
  · intro x hx
    exact hletters x (by simpa using hx)
  · have hopen : (leftParen :: inner).IsChain Parted :=
      hparted.cons fun t ht => ⟨by simp, by simp, by simp [isSign]⟩
    refine hopen.append (List.IsChain.singleton _) fun s hs t ht => ?_
    rw [List.head?_cons, Option.mem_some_iff] at ht
    subst ht
    exact ⟨by simp, by simp, by simp [startsWithSign, isSign]⟩
  · refine settled_cons_iff.2 ⟨by simp, by simp, ?_⟩
    exact hsettled.append hne hends (settled_cons_iff.2 ⟨by simp, by simp, trivial⟩)

/-- The number at the start of a canonical row may have either sign. -/
theorem Canonical.negated {n : Int} {rest : List Token} (h : Canonical (number n :: rest)) :
    Canonical (number (-n) :: rest) := by
  obtain ⟨hletters, hparted, hsettled⟩ := canonical_iff.1 h
  obtain ⟨-, -, hrest⟩ := settled_cons_iff.1 hsettled
  refine canonical_iff.2 ⟨?_, ?_, ?_⟩
  · intro x hx
    exact hletters x (by simpa using hx)
  · refine hparted.imp_head fun {t} ht => ⟨by simp, ?_, by simp [isSign]⟩
    intro k m hnumbers
    exact ht.numbers n m ⟨rfl, hnumbers.2⟩
  · exact settled_cons_iff.2 ⟨fun m hm hneg => rfl, by simp, hrest⟩

/-! ## What collapsing makes of a derived row -/

/-- Collapsing makes of the spelling of the first row the spelling of the second one, in front
of any text. -/
def Collapses (tokens row : List Token) : Prop :=
  ∀ back, (spell tokens ++ back).collapse = spell row ++ back.collapse

theorem Collapses.append {first second early late : List Token} (h : Collapses first early)
    (h' : Collapses second late) : Collapses (first ++ second) (early ++ late) := by
  intro back
  have hfirst := h (spell second ++ back)
  have hsecond := h' back
  simp only [spell, List.flatMap_append, List.append_assoc] at hfirst hsecond ⊢
  rw [hfirst, hsecond]

theorem Raw.no_sign {t : Token} (h : t.Raw) (hsign : t.isSign = false) :
    ∀ c ∈ t.render, Sign.ofSymbol? c = none := by
  intro c hc
  by_contra hsome
  have hmem := h.isSign_of_mem hc (Option.isSome_iff_ne_none.2 hsome)
  rw [hsign] at hmem
  cases hmem

/-- Raw tokens that are no signs stay as they are. -/
theorem Raw.collapses {t : Token} (h : t.Raw) (hsign : t.isSign = false) :
    Collapses [t] [t] := by
  intro back
  have hone : spell [t] = t.render := by simp [spell]
  rw [hone, Text.collapse_append_of_no_sign (h.no_sign hsign)]

/-- A row that starts with a raw token that is no sign is spelled without a sign in front. -/
theorem Raw.head?_spell {t : Token} (h : t.Raw) (hsign : t.isSign = false)
    (rest : List Token) (back : Text) :
    ∀ c ∈ (spell (t :: rest) ++ back).head?, Sign.ofSymbol? c = none := by
  intro c hc
  have hcut : spell (t :: rest) ++ back = t.render ++ (spell rest ++ back) := by simp [spell]
  rw [hcut, List.head?_append_of_ne_nil _ h.render_ne_nil] at hc
  exact h.no_sign hsign c (List.mem_of_mem_head? hc)

/-- A sign in front of a row that starts without one stays. -/
theorem collapses_sum {op : Operator} (hop : op.level = .sum) {second rest : List Token}
    {t : Token} (h : Collapses second (t :: rest)) (ht : t.Raw) (hsign : t.isSign = false) :
    Collapses (operator op :: second) (operator op :: t :: rest) := by
  intro back
  obtain ⟨s, hs, -⟩ := Operator.symbol_of_sum hop
  calc (spell (operator op :: second) ++ back).collapse
      = Text.putChar s.symbol (spell second ++ back).collapse := by simp [spell, render, hs]
    _ = Text.putSign s (spell (t :: rest) ++ back.collapse) := by simp [Text.putChar, h back]
    _ = s.symbol :: (spell (t :: rest) ++ back.collapse) :=
        Text.putSign_of_head (ht.head?_spell hsign rest _) s
    _ = spell (operator op :: t :: rest) ++ back.collapse := by simp [spell, render, hs]

theorem spell_of_neg {n : Int} (h : n < 0) (rest : List Token) :
    spell (number n :: rest) = spell (operator .sub :: number (-n) :: rest) := by
  rw [spell, List.flatMap_cons, render_of_neg h]
  rfl

/-- A sign in front of a negative number is one sign with it. -/
theorem collapses_negative {op : Operator} (hop : op.level = .sum) {second rest : List Token}
    {n : Int} (hn : n < 0) (h : Collapses second (number n :: rest)) :
    Collapses (operator op :: second) (operator op.opposite :: number (-n) :: rest) := by
  intro back
  obtain ⟨s, hs, hopposite⟩ := Operator.symbol_of_sum hop
  have hminus : spell (number n :: rest) = Sign.minus.symbol :: spell (number (-n) :: rest) :=
    spell_of_neg hn rest
  calc (spell (operator op :: second) ++ back).collapse
      = Text.putChar s.symbol (spell second ++ back).collapse := by simp [spell, render, hs]
    _ = Text.putSign s (spell (number n :: rest) ++ back.collapse) := by
        simp [Text.putChar, h back]
    _ = (s.mul .minus).symbol :: (spell (number (-n) :: rest) ++ back.collapse) := by
        rw [hminus, List.cons_append, Text.putSign_symbol_cons]
    _ = spell (operator op.opposite :: number (-n) :: rest) ++ back.collapse := by
        simp [spell, render, hopposite]

/-- A number stays as it is, with its sign. -/
theorem collapses_number (n : Int) : Collapses [number n] [number n] := by
  by_cases hn : n < 0
  · have hdigits : (number (-n)).Raw := Int.neg_nonneg_of_nonpos (Int.le_of_lt hn)
    have hlevel : Operator.sub.level = .sum := rfl
    have hsub := collapses_sum hlevel (hdigits.collapses rfl) hdigits rfl
    intro back
    rw [spell_of_neg hn]
    exact hsub back
  · exact Raw.collapses (Int.not_lt.1 hn) rfl

end Token

namespace Derives

/-- What starts an operand is no sign, and raw in a canonical row unless it is negative. -/
theorem raw_of_starts {t : Token} {rest : List Token} (h : Canonical (t :: rest))
    (ht : t.startsOperand) (hneg : ¬∃ n, n < 0 ∧ t = .number n) : t.Raw ∧ t.isSign = false := by
  cases t with
  | number n => exact ⟨Int.not_lt.1 fun hn => hneg ⟨n, hn, rfl⟩, rfl⟩
  | identifier x => exact ⟨h.letters x List.mem_cons_self, rfl⟩
  | operator op => cases ht
  | leftParen => exact ⟨trivial, rfl⟩
  | rightParen => cases ht

/-- **An operator in front of a row.**  If the row starts with a negative number and the operator
is written like a sign, the opposite operator stands in front of the opposite number. -/
theorem collapsed_operator {op : Operator} {second back : List Token} {right : Expr}
    (h : Derives op.level.tighter back right) (hcanonical : Canonical back)
    (hcollapses : Collapses second back) :
    ∃ op' row right', op'.level = op.level ∧ Derives op.level.tighter row right' ∧
      Canonical row ∧ (op.level = .sum → ∀ n, row.head? = some (.number n) → 0 ≤ n) ∧
      Collapses (.operator op :: second) (.operator op' :: row) ∧
      ∀ env l, (right'.value env >>= op'.apply l) = (right.value env >>= op.apply l) := by
  cases hop : op.level with
  | factor => cases op <;> cases hop
  | product =>
      rw [hop] at h
      have hsign : (Token.operator op).isSign = false := by
        rw [← Bool.not_eq_true, isSign_operator_iff, hop]
        simp
      have hone : Collapses [.operator op] [.operator op] := Raw.collapses trivial hsign
      refine ⟨op, back, right, hop, h, hcanonical, ?_, hone.append hcollapses, fun env l => rfl⟩
      intro hsum
      cases hsum
  | sum =>
      rw [hop] at h
      obtain ⟨t, rest, rfl, ht⟩ := h.starts
      by_cases hneg : ∃ n, n < 0 ∧ t = .number n
      · -- The two signs merge: the opposite operator, and the opposite number behind it.
        obtain ⟨n, hn, rfl⟩ := hneg
        obtain ⟨right', hright, hvalue⟩ := h.negated (by simp [Level.tighter])
        refine ⟨op.opposite, _, right', ?_, hright, hcanonical.negated, ?_,
          collapses_negative hop hn hcollapses, fun env l => ?_⟩
        · rw [Operator.level_opposite, hop]
        · intro _ m hm
          have heq : -n = m := by simpa using hm
          omega
        · rw [hvalue]
          cases right.value env with
          | error cause => rfl
          | ok r => exact Operator.apply_opposite hop l r
      · obtain ⟨hraw, hsign⟩ := raw_of_starts hcanonical ht hneg
        refine ⟨op, _, right, hop, h, hcanonical, fun _ n hn => ?_,
          collapses_sum hop hcollapses hraw hsign, fun env l => rfl⟩
        have heq : t = .number n := by simpa using hn
        exact Int.not_lt.1 fun hlt => hneg ⟨n, hlt, heq⟩

/-- **The collapsed spelling of a derived row** is the spelling of a canonical row, and that
row stands for a tree with the same value. -/
theorem collapsed {level : Level} {tokens : List Token} {e : Expr} (h : Derives level tokens e)
    (hnames : ∀ x ∈ e.names, x.isIdentifier) :
    ∃ row e', Derives level row e' ∧ Canonical row ∧ Collapses tokens row ∧
      ∀ env, e'.value env = e.value env := by
  induction h with
  | number n =>
      exact ⟨_, _, number n, canonical_singleton (by simp), collapses_number n, fun env => rfl⟩
  | identifier x =>
      have hx : x.isIdentifier := hnames x (by simp [Expr.names])
      have hraw : (Token.identifier x).Raw := hx
      refine ⟨_, _, identifier x, canonical_singleton ?_, hraw.collapses rfl, fun env => rfl⟩
      intro y hy
      rw [← Token.identifier.inj hy]
      exact hx
  | group inner ih =>
      obtain ⟨row, e', hderives, hcanonical, hcollapses, hvalue⟩ := ih hnames
      have hopen : Collapses [.leftParen] [.leftParen] := Raw.collapses trivial rfl
      have hclose : Collapses [.rightParen] [.rightParen] := Raw.collapses trivial rfl
      exact ⟨_, e', group hderives, hcanonical.group hderives.ne_nil hderives.ends,
        (hopen.append hcollapses).append hclose, hvalue⟩
  | single only ih =>
      obtain ⟨row, e', hderives, hrest⟩ := ih hnames
      exact ⟨row, e', single hderives, hrest⟩
  | @chain op first second left right before after ihl ihr =>
      obtain ⟨front, left', hleft, hfront, hfirst, hleftValue⟩ :=
        ihl fun x hx => hnames x (List.mem_append_left _ hx)
      obtain ⟨back, right', hright, hback, hsecond, hrightValue⟩ :=
        ihr fun x hx => hnames x (List.mem_append_right _ hx)
      obtain ⟨op', row, right'', hlevel, hrow, hcanonical, hsigns, hcollapses, hvalue⟩ :=
        collapsed_operator hright hback hsecond
      rw [← hlevel] at hleft hrow hsigns ⊢
      refine ⟨front ++ .operator op' :: row, .binary op' left' right'', chain hleft hrow, ?_,
        hfirst.append hcollapses, fun env => ?_⟩
      · refine hfront.chain hleft.ne_nil hleft.ends hcanonical (fun t ht => ?_) hsigns
        obtain ⟨s, rest, rfl, hs⟩ := hrow.starts
        rw [← Option.some.inj ht]
        exact hs
      · simp only [Expr.value, hleftValue, hvalue, hrightValue]

end Derives

end Calculator
