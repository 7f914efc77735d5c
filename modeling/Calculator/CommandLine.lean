import Calculator.CommandLine.Options
import Calculator.Conversation

/-!
# The command line

Given contents, the program carries out a script: the contents themselves or
the file that they name.  Given none, it holds a conversation over the lines of
the standard input.  A script that cannot be read, and arguments that cannot be
understood, are the only failures of the program as a whole; lines that fail
are no reason for it to fail.

* `run_dashes` — the contents after two dashes are a script.
-/

namespace Calculator.CommandLine

/-- What a run of the program leaves behind. -/
structure Report extends Printed where
  code : Nat
  deriving DecidableEq

/-- The end of a run that did what it was asked to. -/
def Report.success (printed : Printed) : Report := ⟨printed, 0⟩

/-- How the program is called. -/
def usage : Text :=
  "Usage: bigcalc [OPTIONS] [CONTENTS]".toList

/-- The description of the program and of its arguments. -/
def help : Text :=
  "An interactive calculator over arbitrary-precision integers with named variables\n\n".toList ++
    usage ++
    ("\n\nArguments:\n" ++
      "  [CONTENTS]  A script to run, one statement per line. " ++
      "Starts an interactive session when omitted\n" ++
      "\nOptions:\n" ++
      "  -f, --file       Tells bigcalc to read `contents` as a path to a script file\n" ++
      "  -p, --pipe-mode  Pipe mode only prints the last value produced by the script\n" ++
      "  -h, --help       Print help\n" ++
      "  -V, --version    Print version").toList

/-- The name and the version of the program. -/
def version : Text :=
  "bigcalc 0.1.0".toList

/-- What is told about a file that cannot be read as a text. -/
def fileFailure (name : Text) : Text :=
  "Failed to read the input file '".toList ++ name ++
    "'. Perhaps this file does not exist?".toList

/-- The end of a run whose arguments were not read to their end. -/
def Halt.report : Halt → Report
  | .help => .success (Printed.answer CommandLine.help)
  | .version => .success (Printed.answer CommandLine.version)
  | .misuse => ⟨Printed.complaint usage, 2⟩

/-- How much of a script's output the options ask for. -/
def Options.mode (options : Options) : Script.Mode :=
  if options.lastOnly then .terse else .full

/-- Carries out a script. -/
def runScript (mode : Script.Mode) (source : Text) : Report :=
  .success (Printed.ofItems (Script.output mode source))

/-- Carries out the script in a file, of which the bytes are given if it can be read. -/
def runFile (mode : Script.Mode) (name : Text) (bytes? : Option (List UInt8)) : Report :=
  match bytes?.bind Utf8.decode? with
  | some source => runScript mode source
  | none => ⟨Printed.complaint (fileFailure name), 1⟩

/-- Runs the program on its arguments, the files it can read and its standard input. -/
def run (arguments : List Text) (readFile : Text → Option (List UInt8)) (stdin : List UInt8) :
    Report :=
  match Options.ofArguments arguments with
  | .error halt => halt.report
  | .ok options =>
    match options.contents with
    | none => .success (Conversation.hold Environment.empty (byteLines stdin))
    | some contents =>
      if options.fromFile then runFile options.mode contents (readFile contents)
      else runScript options.mode contents

/-- The contents after two dashes are a script, whatever they look like. -/
theorem run_dashes (source : Text) (readFile : Text → Option (List UInt8)) (stdin : List UInt8) :
    run [['-', '-'], source] readFile stdin = runScript .full source := rfl

end Calculator.CommandLine
