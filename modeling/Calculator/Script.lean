import Calculator.Session
import Calculator.Text.Lines

/-!
# Scripts

A script is a text whose lines are carried out on a fresh session, up to the
first one that leaves it.  The transcript has one item for each line that
prints: a value, the help, the farewell, or the failure.  In the terse mode
all that is kept is the value that came last.

* `run_cons_exit`, `run_cons_of_ne_exit` — what a line does to the rest;
* `reply?_eq_none_iff` — the lines that print nothing.
-/

namespace Calculator.Script

/-- The answer to a request for help. -/
def helpText : Text :=
  ("This calculator supports the following operators:\n" ++
    "+ : addition\n" ++
    "- : subtraction\n" ++
    "* : multiplication\n" ++
    "/ : integer division\n" ++
    "( ) : parentheses for grouping\n" ++
    "You can use variables (e.g., a, b) and assign values to them (e.g., a = 5)").toList

/-- The answer to the wish to leave. -/
def farewell : Text :=
  "Bye!".toList

/-- Carries out lines up to the first one that leaves the session. -/
def run (env : Environment) : List Text → List (Except Error Outcome) × Environment
  | [] => ([], env)
  | line :: lines =>
    match Session.execute env line with
    | (.ok .exit, next) => ([.ok .exit], next)
    | (result, next) =>
      let (results, last) := run next lines
      (result :: results, last)

/-- What the result of a line prints, if it prints anything. -/
def reply? : Except Error Outcome → Option (Except Error Text)
  | .ok (.value value) => some (.ok (Decimal.render value))
  | .ok .help => some (.ok helpText)
  | .ok .exit => some (.ok farewell)
  | .ok .assigned | .ok .nothing => none
  | .error cause => some (.error cause)

/-- The value among the results, if the result is one. -/
def value? : Except Error Outcome → Option Int
  | .ok (.value value) => some value
  | _ => none

/-- All that lines print, from a given environment on. -/
def transcriptFrom (env : Environment) (lines : List Text) : List (Except Error Text) :=
  (run env lines).1.filterMap reply?

/-- All that a script prints. -/
def transcript (source : Text) : List (Except Error Text) :=
  transcriptFrom Environment.empty source.lines

/-- The value that a script computes last, if it computes any. -/
def lastValue? (source : Text) : Option Int :=
  ((run Environment.empty source.lines).1.filterMap value?).getLast?

/-- How much of what a script prints is kept. -/
inductive Mode where
  /-- Every item. -/
  | full
  /-- The last value only. -/
  | terse
  deriving DecidableEq

/-- What a script prints in a given mode. -/
def output (mode : Mode) (source : Text) : List (Except Error Text) :=
  match mode with
  | .full => transcript source
  | .terse => (lastValue? source).toList.map fun value => .ok (Decimal.render value)

@[simp] theorem run_nil (env : Environment) : run env [] = ([], env) := rfl

/-- After a line that leaves the session nothing is carried out. -/
theorem run_cons_exit {env : Environment} {line : Text}
    (h : (Session.execute env line).1 = .ok .exit) (lines : List Text) :
    run env (line :: lines) = ([.ok .exit], (Session.execute env line).2) := by
  rcases hresult : Session.execute env line with ⟨result, next⟩
  rw [hresult] at h
  cases h
  simp [run, hresult]

/-- After any other line the session goes on. -/
theorem run_cons_of_ne_exit {env : Environment} {line : Text}
    (h : (Session.execute env line).1 ≠ .ok .exit) (lines : List Text) :
    run env (line :: lines) =
      ((Session.execute env line).1 :: (run (Session.execute env line).2 lines).1,
        (run (Session.execute env line).2 lines).2) := by
  rcases hresult : Session.execute env line with ⟨result, next⟩
  rw [hresult] at h
  rw [run, hresult]
  split
  · next heq => cases heq; exact absurd rfl h
  · next heq => cases heq; rfl

/-- Nothing is printed for an assignment and for a line that says nothing. -/
theorem reply?_eq_none_iff {result : Except Error Outcome} :
    reply? result = none ↔ result = .ok .assigned ∨ result = .ok .nothing := by
  match result with
  | .ok (.value _) | .ok .help | .ok .exit | .ok .assigned | .ok .nothing | .error _ =>
    simp [reply?]

example : transcript "a = 6\na * a\n1 / 0\n/exit\na".toList =
    [.ok ['3', '6'], .error (.eval .divisionByZero), .ok farewell] := by rfl

example : output .terse "1\n/help\n2 +".toList = [.ok ['1']] := by rfl

end Calculator.Script
