import Calculator.Text.Basic

/-!
# Runs of signs

A run of plus and minus signs counts as one sign: a minus when it holds an odd
number of minus signs, a plus otherwise.  `collapse` puts that one sign in the
place of every run.  It works from the right: each sign is laid in front of a
text that is collapsed already, and merges with the sign it meets there.

* `Sign.mul_assoc` — merging does not depend on the grouping, so a run may be
  collapsed in parts;
* `collapse_append` — collapsing a text after its tail was collapsed is no
  different from collapsing all of it;
* `collapse_of_not_sign` — every other character stays in its place.
-/

namespace Calculator

/-- One of the two signs. -/
inductive Sign where
  | plus
  | minus
  deriving DecidableEq

namespace Sign

/-- The character a sign is written with. -/
def symbol : Sign → Char
  | plus => '+'
  | minus => '-'

/-- The sign that a character writes, if it writes one. -/
def ofSymbol? : Char → Option Sign
  | '+' => some plus
  | '-' => some minus
  | _ => none

/-- Two signs in a row count as this one. -/
def mul : Sign → Sign → Sign
  | plus, s => s
  | minus, plus => minus
  | minus, minus => plus

@[simp] theorem ofSymbol?_symbol (s : Sign) : ofSymbol? s.symbol = some s := by
  cases s <;> rfl

theorem mul_assoc (r s t : Sign) : (r.mul s).mul t = r.mul (s.mul t) := by
  cases r <;> cases s <;> cases t <;> rfl

/-- The character is the one spelling of its sign. -/
theorem ofSymbol?_eq_some_iff {c : Char} {s : Sign} : ofSymbol? c = some s ↔ c = s.symbol := by
  constructor
  · intro h
    unfold ofSymbol? at h
    split at h <;> cases h <;> rfl
  · rintro rfl
    exact ofSymbol?_symbol s

end Sign

namespace Text

/-- The sign that a text starts with, and what follows it. -/
def leadingSign? : Text → Option (Sign × Text)
  | [] => none
  | c :: text => (Sign.ofSymbol? c).map fun s => (s, text)

/-- A sign laid in front of a text, merged with the sign that the text starts with. -/
def putSign (s : Sign) (text : Text) : Text :=
  match leadingSign? text with
  | some (t, after) => (s.mul t).symbol :: after
  | none => s.symbol :: text

/-- A character laid in front of a collapsed text. -/
def putChar (c : Char) (text : Text) : Text :=
  match Sign.ofSymbol? c with
  | some s => putSign s text
  | none => c :: text

/-- The text with one sign in the place of every run of signs. -/
def collapse (text : Text) : Text :=
  text.foldr putChar []

@[simp] theorem collapse_nil : collapse [] = [] := rfl

@[simp] theorem collapse_cons (c : Char) (text : Text) :
    collapse (c :: text) = putChar c (collapse text) := rfl

/-- A character that is no sign stays in its place. -/
theorem collapse_of_not_sign {c : Char} (h : Sign.ofSymbol? c = none) (text : Text) :
    collapse (c :: text) = c :: collapse text := by
  simp [putChar, h]

/-- A text is collapsed from the right, so its tail may have been collapsed before. -/
theorem collapse_append (s t : Text) : collapse (s ++ t) = s.foldr putChar (collapse t) := by
  simp [collapse]

example : collapse ['5', '-', '-', '+', '-', '2', '+', '-', '-'] = ['5', '-', '2', '+'] := by
  decide

end Text

end Calculator
