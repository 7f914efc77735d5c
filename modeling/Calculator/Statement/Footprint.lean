import Calculator.Statement
import Calculator.Token.Lexer

/-!
# The footprint of a line

Of all variables a line touches a few: an assignment writes one and may read
one, a query reads one, an expression reads all of its names.  A line that
cannot be read touches none.
-/

namespace Calculator

namespace Token

/-- The name of a token, if it is a name. -/
def name? : Token → Option Text
  | identifier name => some name
  | _ => none

end Token

namespace Statement

/-- The name that a statement binds, if it is to bind one. -/
def written? : Statement → Option Text
  | assignment name _ => some name
  | _ => none

/-- The names that a statement asks for. -/
def read : Statement → List Text
  | assignment _ (.copy name) => [name]
  | query name => [name]
  | expression text =>
    match tokenize text with
    | .ok tokens => tokens.filterMap Token.name?
    | .error _ => []
  | _ => []

end Statement

namespace Line

/-- The name that a line binds, if it is to bind one. -/
def written? (line : Text) : Option Text :=
  match Statement.parse line with
  | .ok statement => statement.written?
  | .error _ => none

/-- The names that a line asks for. -/
def read (line : Text) : List Text :=
  match Statement.parse line with
  | .ok statement => statement.read
  | .error _ => []

example : read "a * (b + 2)".toList = [['a'], ['b']] := by rfl

example : written? "a = b".toList = some ['a'] := by rfl

end Line

end Calculator
