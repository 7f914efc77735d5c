import Calculator.Token.Basic

/-!
# What can go wrong

A line fails either while it is read or while it is computed.  Each failure is
a cause with the evidence for it.  Causes are of six **kinds**, whatever stage
they come from, and all that is wrong with the shape of an expression is of one
kind.

* `Error.message_eq_iff` — what the user is told of a failure is its kind, no less
  and no more.
-/

namespace Calculator

/-- Why a text could not be read. -/
inductive ParseError where
  /-- A character of an expression that starts no token. -/
  | strayCharacter (c : Char)
  /-- A closing parenthesis too many, or one missing. -/
  | unbalancedParentheses
  /-- An assignment without the shape of one, or from an unbound name. -/
  | invalidAssignment
  /-- The left side of an assignment is no name. -/
  | invalidIdentifier (name : Text)
  /-- A line that starts like a command and is none. -/
  | unknownCommand (command : Text)
  deriving DecidableEq

/-- Why an expression that was read has no value. -/
inductive EvalError where
  /-- A name without a value. -/
  | unknownVariable (name : Text)
  | divisionByZero
  /-- An operator that finds fewer than two values. -/
  | missingOperand (op : Operator)
  /-- A token that computes nothing. -/
  | unexpectedToken (token : Token)
  /-- The values at the end, when they are not exactly one. -/
  | leftoverOperands (count : Nat)
  deriving DecidableEq

/-- Why a line failed. -/
inductive Error where
  | parse (cause : ParseError)
  | eval (cause : EvalError)
  deriving DecidableEq

/-- The kinds of failures. -/
inductive ErrorKind where
  | invalidExpression
  | unknownVariable
  | divisionByZero
  | invalidAssignment
  | invalidIdentifier
  | unknownCommand
  deriving DecidableEq

/-- The kind of a text that could not be read. -/
def ParseError.kind : ParseError → ErrorKind
  | strayCharacter _ | unbalancedParentheses => .invalidExpression
  | invalidAssignment => .invalidAssignment
  | invalidIdentifier _ => .invalidIdentifier
  | unknownCommand _ => .unknownCommand

/-- The kind of an expression without a value. -/
def EvalError.kind : EvalError → ErrorKind
  | unknownVariable _ => .unknownVariable
  | divisionByZero => .divisionByZero
  | missingOperand _ | unexpectedToken _ | leftoverOperands _ => .invalidExpression

/-- The kind of a line that failed. -/
def Error.kind : Error → ErrorKind
  | parse cause => cause.kind
  | eval cause => cause.kind

/-- What the user is told about a text that could not be read. -/
def ParseError.message : ParseError → Text
  | strayCharacter _ | unbalancedParentheses => "Invalid expression".toList
  | invalidAssignment => "Invalid assignment".toList
  | invalidIdentifier _ => "Invalid identifier".toList
  | unknownCommand _ => "Unknown command".toList

/-- The closer description of a text that could not be read, where there is one. -/
def ParseError.details? : ParseError → Option Text
  | strayCharacter c => some ("unexpected input '".toList ++ c :: "'".toList)
  | _ => none

/-- What the user is told about an expression without a value. -/
def EvalError.message : EvalError → Text
  | unknownVariable _ => "Unknown variable".toList
  | divisionByZero => "Division by zero".toList
  | missingOperand _ | unexpectedToken _ | leftoverOperands _ => "Invalid expression".toList

/-- What the user is told about a line that failed. -/
def Error.message : Error → Text
  | parse cause => cause.message
  | eval cause => cause.message

/-- The wording for a kind. -/
def ErrorKind.message : ErrorKind → Text
  | invalidExpression => "Invalid expression".toList
  | unknownVariable => "Unknown variable".toList
  | divisionByZero => "Division by zero".toList
  | invalidAssignment => "Invalid assignment".toList
  | invalidIdentifier => "Invalid identifier".toList
  | unknownCommand => "Unknown command".toList

theorem ErrorKind.message_injective {kind kind' : ErrorKind} (h : kind.message = kind'.message) :
    kind = kind' := by
  revert h
  cases kind <;> cases kind' <;> decide

/-- The wording depends on the kind alone. -/
theorem Error.message_kind (e : Error) : e.kind.message = e.message := by
  cases e with
  | parse cause => cases cause <;> rfl
  | eval cause => cases cause <;> rfl

/-- **The user is told the kind of a failure**: failures of one kind read alike, and failures of
two kinds do not. -/
theorem Error.message_eq_iff {e e' : Error} : e.message = e'.message ↔ e.kind = e'.kind := by
  rw [← e.message_kind, ← e'.message_kind]
  exact ⟨ErrorKind.message_injective, congrArg ErrorKind.message⟩

end Calculator
