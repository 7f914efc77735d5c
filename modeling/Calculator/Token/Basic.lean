import Calculator.Decimal
import Calculator.Operator

/-!
# Tokens

The words of the calculator: numbers, names, the four operators and the two
parentheses.  A number carries its sign, so a written minus sign is part of a
number in one place and an operator in another; which of the two is settled
when the tokens are read (`Calculator.Token.Lexer`).

A token **awaits an operand** when something to compute with has to follow it:
an operator or an opening parenthesis.
-/

namespace Calculator

/-- A word of the calculator's language. -/
inductive Token where
  | number (value : Int)
  | identifier (name : Text)
  | operator (op : Operator)
  | leftParen
  | rightParen
  deriving DecidableEq

namespace Token

/-- The token as it is written. -/
def render : Token → Text
  | number value => Decimal.render value
  | identifier name => name
  | operator op => [op.symbol]
  | leftParen => ['(']
  | rightParen => [')']

/-- A list of tokens as it is written, a space between any two. -/
def renderAll (tokens : List Token) : Text :=
  [' '].intercalate (tokens.map render)

/-- The token that a single mark writes, if it writes one. -/
def ofMark? : Char → Option Token
  | '(' => some leftParen
  | ')' => some rightParen
  | c => (Operator.ofSymbol? c).map operator

/-- Whether an operand has to come next. -/
def awaitsOperand : Token → Bool
  | operator _ | leftParen => true
  | number _ | identifier _ | rightParen => false

@[simp] theorem ofMark?_symbol (op : Operator) : ofMark? op.symbol = some (operator op) := by
  cases op <;> rfl

/-- A mark is read as the token that is written that way. -/
theorem render_of_ofMark? {c : Char} {token : Token} (h : ofMark? c = some token) :
    token.render = [c] := by
  unfold ofMark? at h
  split at h
  · cases h; rfl
  · cases h; rfl
  · obtain ⟨op, hop, rfl⟩ := Option.map_eq_some_iff.1 h
    rw [render, Operator.ofSymbol?_eq_some_iff.1 hop]

end Token

end Calculator
