import Calculator.Token.Basic

/-!
# Canonical rows of tokens

Not every row of tokens can be read from a text.  Written without a gap, two
names in a row would be one name, two numbers one number, two signs one sign;
and a minus sign in front of an operand would have become part of the number
after it.  A row in which none of this happens is **canonical**.

* `awaitsAfter_nil`, `awaitsAfter_append` — where an operand is expected depends
  on the last token only.
-/

namespace Calculator

namespace Token

/-- Whether an operand is expected after a row of tokens. -/
def awaitsAfter (front : List Token) : Bool :=
  front.getLast?.all awaitsOperand

@[simp] theorem awaitsAfter_nil : awaitsAfter [] = true := rfl

@[simp] theorem awaitsAfter_append (front : List Token) (token : Token) :
    awaitsAfter (front ++ [token]) = token.awaitsOperand := by
  simp [awaitsAfter]

/-- The two operators that are written like a sign. -/
def isSign : Token → Bool
  | operator .add | operator .sub => true
  | _ => false

/-- The tokens right after which a number may be negative. -/
def admitsNegative : Token → Bool
  | leftParen | operator .mul | operator .div => true
  | _ => false

/-- A row of tokens that falls apart into the same tokens when it is written. -/
structure Canonical (tokens : List Token) : Prop where
  /-- Names are made of letters. -/
  letters : ∀ name, identifier name ∈ tokens → name.isIdentifier
  /-- No two names stand side by side. -/
  names : ∀ front x y back, tokens ≠ front ++ identifier x :: identifier y :: back
  /-- No two numbers stand side by side. -/
  numbers : ∀ front m n back, tokens ≠ front ++ number m :: number n :: back
  /-- No two signs stand side by side. -/
  signs : ∀ front s t back, tokens = front ++ s :: t :: back → ¬(s.isSign ∧ t.isSign)
  /-- A number is negative only at the start, in a group or after a factor's operator. -/
  negative : ∀ front n back, tokens = front ++ number n :: back → n < 0 →
    front.getLast?.all admitsNegative
  /-- No minus sign in front of an operand is left in front of a number. -/
  attached : ∀ front n back, tokens = front ++ operator .sub :: number n :: back →
    ¬awaitsAfter front

end Token

end Calculator
