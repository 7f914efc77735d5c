import Calculator.Error

/-!
# What a line says

A line is taken without the blanks at its ends.  Nothing but blanks says
nothing; a slash in front makes it a command, an equals sign anywhere an
assignment, letters only a question for a variable.  Everything else is an
expression, and is kept as the text it is: whether it makes sense is found out
when it is computed.

An assignment is one name, one equals sign and one source of a value.  Of
several faults the first in this order is told: the number of equals signs, a
side left empty, the name, the source.
-/

namespace Calculator

/-- A line that steers the session instead of computing. -/
inductive Command where
  | help
  | exit
  deriving DecidableEq

/-- Where an assignment takes its value from. -/
inductive Source where
  /-- An integer written in the line. -/
  | literal (value : Int)
  /-- The present value of a name. -/
  | copy (name : Text)
  deriving DecidableEq

/-- What a line says. -/
inductive Statement where
  | blank
  | command (command : Command)
  | assignment (name : Text) (source : Source)
  | query (name : Text)
  | expression (text : Text)
  deriving DecidableEq

namespace Command

/-- The text that gives a command. -/
def spelling : Command → Text
  | help => "/help".toList
  | exit => "/exit".toList

/-- The command that a text gives. -/
def parse (text : Text) : Except ParseError Command :=
  if text = help.spelling then .ok help
  else if text = exit.spelling then .ok exit
  else .error (.unknownCommand text)

@[simp] theorem parse_spelling (command : Command) : parse command.spelling = .ok command := by
  cases command <;> rfl

/-- A command has one spelling. -/
theorem parse_ok_iff {text : Text} {command : Command} :
    parse text = .ok command ↔ text = command.spelling := by
  constructor
  · intro h
    unfold parse at h
    split at h
    · next heq => cases h; exact heq
    · split at h
      · next heq => cases h; exact heq
      · cases h
  · rintro rfl
    exact parse_spelling command

end Command

/-- The source that a text names: a literal or a name. -/
def Source.ofText? (text : Text) : Option Source :=
  match Decimal.literal? text with
  | some value => some (literal value)
  | none => if text.isIdentifier then some (copy text) else none

namespace Statement

/-- The assignment between a left and a right side, both without blanks at their ends. -/
def assign (left right : Text) : Except ParseError Statement :=
  if left.isEmpty || right.isEmpty then .error .invalidAssignment
  else if !left.isIdentifier then .error (.invalidIdentifier left)
  else match Source.ofText? right with
    | some source => .ok (assignment left source)
    | none => .error .invalidAssignment

/-- The assignment that a line says, if it has the one equals sign of an assignment. -/
def parseAssignment (line : Text) : Except ParseError Statement :=
  match line.splitOn '=' with
  | [left, right] => assign (Text.trim left) (Text.trim right)
  | _ => .error .invalidAssignment

/-- What a line without blanks at its ends says. -/
def parseTrimmed (line : Text) : Except ParseError Statement :=
  if line.isEmpty then .ok blank
  else if line.head? = some '/' then (Command.parse line).map command
  else if line.contains '=' then parseAssignment line
  else if line.isIdentifier then .ok (query line)
  else .ok (expression line)

/-- What a line says. -/
def parse (line : Text) : Except ParseError Statement :=
  parseTrimmed line.trim

example : parse " ab = -07 ".toList = .ok (assignment "ab".toList (.literal (-7))) := by rfl

example : parse "1a = ".toList = .error .invalidAssignment := by rfl

example : parse "/x = 1".toList = .error (.unknownCommand "/x = 1".toList) := by rfl

end Statement

end Calculator
