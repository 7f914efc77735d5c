import Calculator.CommandLine

/-!
# The program

The outer layer: it fetches arguments and bytes, and prints what the library
answers.  A conversation is answered line by line, while it goes on.
-/

namespace Calculator.Program

/-- Prints to the two output channels. -/
def print (printed : Printed) : IO Unit := do
  IO.print (String.ofList printed.stdout)
  IO.eprint (String.ofList printed.stderr)

/-- The bytes up to the next line feed, with it, or up to the end of the input. -/
partial def readLine (stdin : IO.FS.Stream) (read : ByteArray) : IO ByteArray := do
  match (← stdin.read 1).toList with
  | [] => return read
  | byte :: _ =>
    if byte = 0x0A then return read.push byte
    else readLine stdin (read.push byte)

/-- Answers the lines of the standard input one by one. -/
partial def converse (stdin : IO.FS.Stream) (env : Environment) : IO Unit := do
  let bytes ← readLine stdin ByteArray.empty
  match byteLines bytes.toList with
  | [] => return
  | line :: _ =>
    let (printed, next?) := Conversation.answer env line
    print printed
    match next? with
    | some next => converse stdin next
    | none => return

/-- The bytes of a file, if it can be read. -/
def readFile? (name : Text) : IO (Option (List UInt8)) :=
  try
    let bytes ← IO.FS.readBinFile (String.ofList name)
    return some bytes.toList
  catch _ => return none

/-- Prints a report; its code is the code of the program. -/
def finish (report : CommandLine.Report) : IO UInt32 := do
  print report.toPrinted
  return report.code.toUInt32

end Calculator.Program

open Calculator in
/-- Runs the program. -/
def main (arguments : List String) : IO UInt32 := do
  let texts := arguments.map String.toList
  match CommandLine.Options.ofArguments texts with
  | .ok ⟨_, _, none⟩ =>
    Program.converse (← IO.getStdin) Environment.empty
    return 0
  | .ok ⟨true, _, some name⟩ =>
    let bytes? ← Program.readFile? name
    Program.finish (CommandLine.run texts (fun _ => bytes?) [])
  | _ => Program.finish (CommandLine.run texts (fun _ => none) [])
