import Calculator.Printed
import Calculator.Script
import Calculator.Text.Utf8

/-!
# A conversation

In a conversation the lines come in one by one, as bytes, and each is answered
before the next one is looked at.  It is over after the line that leaves the
session, after a line that is no UTF-8, and when no line is left.

* `printedFor_eq` — a line prints what it would in a script;
* `hold_cons_of_text` — a line that is a text is answered by the session;
* `hold_cons_of_bytes` — any other line ends the conversation.
-/

namespace Calculator.Conversation

/-- What is told about a line that is no UTF-8. -/
def readFailure : Text :=
  "Failed to read input: stream did not contain valid UTF-8".toList

/-- What the result of a line prints. -/
def printedFor : Except Error Outcome → Printed
  | .ok (.value value) => Printed.answer (Decimal.render value)
  | .ok .help => Printed.answer Script.helpText
  | .ok .exit => Printed.answer Script.farewell
  | .ok .assigned | .ok .nothing => Printed.nothing
  | .error cause => Printed.complaint cause.message

/-- The answer to one line: what is printed, and the environment for the next
line if there is to be one. -/
def answer (env : Environment) (line : List UInt8) : Printed × Option Environment :=
  match Utf8.decode? line with
  | none => (Printed.complaint readFailure, none)
  | some text =>
    match Session.execute env text with
    | (.ok .exit, _) => (printedFor (.ok .exit), none)
    | (result, next) => (printedFor result, some next)

/-- All that is printed while the lines are answered. -/
def hold (env : Environment) : List (List UInt8) → Printed
  | [] => Printed.nothing
  | line :: lines =>
    match answer env line with
    | (printed, none) => printed
    | (printed, some next) => printed.append (hold next lines)

/-- **A line prints what it would in a script.** -/
theorem printedFor_eq (result : Except Error Outcome) :
    printedFor result = Printed.ofItems (Script.reply? result).toList := by
  match result with
  | .ok (.value _) | .ok .help | .ok .exit | .ok .assigned | .ok .nothing | .error _ =>
    simp [printedFor, Script.reply?, Printed.ofItem]

@[simp] theorem hold_nil (env : Environment) : hold env [] = Printed.nothing := rfl

/-- A line that is no text ends the conversation. -/
theorem hold_cons_of_bytes {line : List UInt8} (h : Utf8.decode? line = none) (env : Environment)
    (lines : List (List UInt8)) : hold env (line :: lines) = Printed.complaint readFailure := by
  simp [hold, answer, h]

/-- A line that is a text prints what the session answers to it, and the
conversation goes on unless the line leaves the session. -/
theorem hold_cons_of_text {line : List UInt8} {text : Text} (h : Utf8.decode? line = some text)
    (env : Environment) (lines : List (List UInt8)) :
    hold env (line :: lines) =
      (printedFor (Session.execute env text).1).append
        (match (Session.execute env text).1 with
          | .ok .exit => Printed.nothing
          | _ => hold (Session.execute env text).2 lines) := by
  rcases hresult : Session.execute env text with ⟨result, next⟩
  match result with
  | .ok .exit => simp [hold, answer, h, hresult]
  | .ok (.value _) | .ok .help | .ok .assigned | .ok .nothing | .error _ =>
    simp [hold, answer, h, hresult]

end Calculator.Conversation
