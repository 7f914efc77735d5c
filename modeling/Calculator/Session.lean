import Calculator.ReversePolish.Machine
import Calculator.ReversePolish.Yard
import Calculator.Statement
import Calculator.Token.Lexer

/-!
# A session

A session is a row of lines over one environment.  Each line has a result and
leaves an environment for the next one; a line that fails, or that only asks,
leaves the one it found.

* `evaluate_of_ok`, `evaluate_of_tokenize_error`, `evaluate_of_arrange_error` —
  the three ends that an expression can come to;
* `perform_of_not_assignment` — only an assignment changes a variable;
* `run_append` — lines may be carried out in parts.
-/

namespace Calculator

/-- The result of a line that did not fail. -/
inductive Outcome where
  | value (value : Int)
  | assigned
  | help
  | exit
  | nothing
  deriving DecidableEq

namespace Session

/-- The value of an expression under an environment. -/
def evaluate (env : Environment) (source : Text) : Except Error Int := do
  let tokens ← (tokenize source).mapError .parse
  let row ← (ReversePolish.arrange tokens).mapError .parse
  (ReversePolish.evaluate env row).mapError .eval

/-- The integer that a source yields. -/
def resolve? (env : Environment) : Source → Option Int
  | .literal value => some value
  | .copy name => env.lookup name

/-- Binds a name to what a source yields; a source that yields nothing is refused. -/
def assign (env : Environment) (name : Text) (source : Source) :
    Except ParseError Unit × Environment :=
  match resolve? env source with
  | some value => (.ok (), env.assign name value)
  | none => (.error .invalidAssignment, env)

/-- Carries out a statement. -/
def perform (env : Environment) : Statement → Except Error Outcome × Environment
  | .blank => (.ok .nothing, env)
  | .command .help => (.ok .help, env)
  | .command .exit => (.ok .exit, env)
  | .assignment name source =>
    let (result, next) := assign env name source
    (result.mapError .parse |>.map fun _ => .assigned, next)
  | .query name => ((env.query name).mapError .eval |>.map .value, env)
  | .expression text => ((evaluate env text).map .value, env)

/-- Carries out a line. -/
def execute (env : Environment) (line : Text) : Except Error Outcome × Environment :=
  match Statement.parse line with
  | .ok statement => perform env statement
  | .error cause => (.error (.parse cause), env)

/-- Carries out one line after the other, whatever their results. -/
def run (env : Environment) : List Text → List (Except Error Outcome) × Environment
  | [] => ([], env)
  | line :: lines =>
    let (result, next) := execute env line
    let (results, last) := run next lines
    (result :: results, last)

/-- An expression that can be read is computed in reverse Polish order. -/
theorem evaluate_of_ok {source : Text} {tokens row : List Token}
    (hread : tokenize source = .ok tokens) (hrow : ReversePolish.arrange tokens = .ok row)
    (env : Environment) :
    evaluate env source = (ReversePolish.evaluate env row).mapError .eval := by
  rw [evaluate, hread]
  exact congrArg (· >>= fun row => (ReversePolish.evaluate env row).mapError .eval)
    (congrArg (Except.mapError Error.parse) hrow)

/-- An expression without tokens has no value. -/
theorem evaluate_of_tokenize_error {source : Text} {e : ParseError}
    (h : tokenize source = .error e) (env : Environment) :
    evaluate env source = .error (.parse e) := by
  rw [evaluate, h]
  rfl

/-- An expression with unbalanced parentheses has no value. -/
theorem evaluate_of_arrange_error {source : Text} {tokens : List Token} {e : ParseError}
    (hread : tokenize source = .ok tokens) (h : ReversePolish.arrange tokens = .error e)
    (env : Environment) : evaluate env source = .error (.parse e) := by
  rw [evaluate, hread]
  exact congrArg (· >>= fun row => (ReversePolish.evaluate env row).mapError .eval)
    (congrArg (Except.mapError Error.parse) h)

/-- Only an assignment changes a variable. -/
theorem perform_of_not_assignment {statement : Statement}
    (h : ∀ name source, statement ≠ .assignment name source) (env : Environment) :
    (perform env statement).2 = env := by
  match statement with
  | .assignment name source => exact absurd rfl (h name source)
  | .blank | .command .help | .command .exit | .query _ | .expression _ => rfl

@[simp] theorem run_nil (env : Environment) : run env [] = ([], env) := rfl

@[simp] theorem run_cons (env : Environment) (line : Text) (lines : List Text) :
    run env (line :: lines) =
      ((execute env line).1 :: (run (execute env line).2 lines).1,
        (run (execute env line).2 lines).2) := rfl

/-- Lines may be carried out in two parts, one after the other. -/
theorem run_append (env : Environment) (first second : List Text) :
    run env (first ++ second) =
      ((run env first).1 ++ (run (run env first).2 second).1,
        (run (run env first).2 second).2) := by
  induction first generalizing env with
  | nil => rfl
  | cons line first ih => simp [ih]

end Session

end Calculator
