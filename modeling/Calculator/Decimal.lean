import Calculator.Text.Basic

/-!
# Decimal text

Integers are written in base ten, with a minus sign in front when negative and
no superfluous zero.  Reading is more generous than writing: leading zeros and
a plus sign are allowed, and there is a zero with a minus sign.

* `value_toDigits` — the digits of a number have that number as their value;
* `literal?_render` — an integer that was written is read back;
* `render_ne_nil` — no integer is written as the empty text.
-/

namespace Calculator.Decimal

/-- The number that a row of digits stands for. -/
def value (digits : Text) : Nat :=
  Nat.ofDigitChars 10 digits 0

/-- An integer in base ten. -/
def render : Int → Text
  | .ofNat n => Nat.toDigits 10 n
  | .negSucc n => '-' :: Nat.toDigits 10 (n + 1)

/-- The number that a numeral stands for; any other text stands for none. -/
def magnitude? (text : Text) : Option Nat :=
  if text.isNumeral then some (value text) else none

/-- The integer of a literal: one sign at most, then a numeral. -/
def literal? : Text → Option Int
  | '-' :: digits => (magnitude? digits).map fun n => -(n : Int)
  | '+' :: digits => (magnitude? digits).map fun n => (n : Int)
  | digits => (magnitude? digits).map fun n => (n : Int)

@[simp] theorem value_toDigits (n : Nat) : value (Nat.toDigits 10 n) = n := by
  simp [value]

/-- The digits of a number make a numeral. -/
theorem isNumeral_toDigits (n : Nat) : Text.isNumeral (Nat.toDigits 10 n) := by
  simp only [Text.isNumeral, Bool.and_eq_true, Bool.not_eq_true', List.isEmpty_eq_false_iff,
    List.all_eq_true]
  exact ⟨Nat.toDigits_ne_nil, fun c hc => Nat.isDigit_of_mem_toDigits (by decide) (by decide) hc⟩

@[simp] theorem magnitude?_toDigits (n : Nat) : magnitude? (Nat.toDigits 10 n) = some n := by
  simp [magnitude?, isNumeral_toDigits]

/-- A text that starts with a digit is read without a sign. -/
theorem literal?_of_isDigit {c : Char} {digits : Text} (h : c.isDigit) :
    literal? (c :: digits) = (magnitude? (c :: digits)).map fun n => (n : Int) := by
  unfold literal?
  split
  · next heq => cases heq; exact absurd h (by decide)
  · next heq => cases heq; exact absurd h (by decide)
  · rfl

/-- An integer that was written is read back. -/
theorem literal?_render (n : Int) : literal? (render n) = some n := by
  cases n with
  | ofNat n =>
    cases hdigits : Nat.toDigits 10 n with
    | nil => exact absurd hdigits Nat.toDigits_ne_nil
    | cons c digits =>
      have hc : c.isDigit := Nat.isDigit_of_mem_toDigits (b := 10) (n := n) (by decide) (by decide)
        (by simp [hdigits])
      rw [render, hdigits, literal?_of_isDigit hc, ← hdigits, magnitude?_toDigits]
      rfl
  | negSucc n => simp [render, literal?, Int.negSucc_eq]

/-- No integer is written as the empty text. -/
theorem render_ne_nil (n : Int) : render n ≠ [] := by
  cases n with
  | ofNat n => exact Nat.toDigits_ne_nil
  | negSucc n => simp [render]

example : render (-120) = ['-', '1', '2', '0'] := by decide

example : literal? ['-', '0', '7'] = some (-7) := by decide

example : literal? ['+', '-', '7'] = none := by decide

end Calculator.Decimal
