import Calculator.Text.Basic

/-!
# Runs: where one word ends and the next begins

Two neighbours are **joined** when both are letters or both are digits.  A text
falls apart into its runs, the longest stretches of joined characters: a word,
a numeral, or any other character all alone.  So `12ab` is two runs, `a1` is
two runs, and `((` is two runs as well.

Of any kind of characters a text has longest runs (`LongestRun`), told by the
two places where they end.
-/

namespace Calculator.Text

/-- Two neighbours belong to one run when both are letters or both are digits. -/
def joined (a b : Char) : Bool :=
  a.isAlpha && b.isAlpha || a.isDigit && b.isDigit

/-- The text cut at every place where two neighbours are not joined. -/
def runs (text : Text) : List Text :=
  text.splitBy joined

/-- A run of characters of one kind in the middle of a text: one at least, and none more of that
kind on either side. -/
structure LongestRun (kind : Char → Bool) (front run back : Text) : Prop where
  ne_nil : run ≠ []
  all : ∀ c ∈ run, kind c
  starts : ∀ c ∈ front.getLast?, kind c = false
  ends : ∀ c ∈ back.head?, kind c = false

/-- Joining does not depend on the order of the two neighbours. -/
theorem joined_comm (a b : Char) : joined a b = joined b a := by
  simp [joined, Bool.and_comm]

example : runs ['1', '2', 'a', 'b', '(', '(', '3'] =
    [['1', '2'], ['a', 'b'], ['('], ['('], ['3']] := by decide

end Calculator.Text
