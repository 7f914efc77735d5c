import Calculator.Text.Basic

/-!
# The arguments of the command line

Arguments are read from left to right.  Two dashes alone end the flags: what
follows is taken as it stands.  Before them, two dashes start a flag by its
word and one dash starts flags by their letters; a dash alone is no flag.
There is at most one argument that is no flag, the **contents**, and no flag
is given twice.

Reading stops at the first argument, or letter, that ends it: a request for
the help or for the version, or a mistake.
-/

namespace Calculator.CommandLine

/-- What a flag asks for. -/
inductive Flag where
  /-- To take the contents as the name of a file. -/
  | file
  /-- To print the last value only. -/
  | pipeMode
  | help
  | version
  deriving DecidableEq

/-- The flag of a letter. -/
def Flag.ofLetter? : Char → Option Flag
  | 'f' => some file
  | 'p' => some pipeMode
  | 'h' => some help
  | 'V' => some version
  | _ => none

/-- The word of a flag. -/
def Flag.word : Flag → Text
  | file => "file".toList
  | pipeMode => "pipe-mode".toList
  | help => "help".toList
  | version => "version".toList

/-- The flag of a word. -/
def Flag.ofWord? (word : Text) : Option Flag :=
  [file, pipeMode, help, version].find? fun flag => flag.word = word

/-- Why the arguments are not read to their end. -/
inductive Halt where
  | help
  | version
  /-- The arguments are not put as they have to be. -/
  | misuse
  deriving DecidableEq

/-- What the arguments ask for. -/
structure Options where
  /-- The contents are the name of a file. -/
  fromFile : Bool
  /-- The last value alone is printed. -/
  lastOnly : Bool
  contents : Option Text
  deriving DecidableEq

namespace Options

/-- What no argument asks for. -/
def initial : Options := ⟨false, false, none⟩

/-- Takes in a flag. -/
def raise (options : Options) : Flag → Except Halt Options
  | .file => if options.fromFile then .error .misuse else .ok { options with fromFile := true }
  | .pipeMode => if options.lastOnly then .error .misuse else .ok { options with lastOnly := true }
  | .help => .error .help
  | .version => .error .version

/-- Takes in a flag if there is one. -/
def raise? (options : Options) : Option Flag → Except Halt Options
  | some flag => options.raise flag
  | none => .error .misuse

/-- Takes in the contents. -/
def setContents (options : Options) (text : Text) : Except Halt Options :=
  match options.contents with
  | none => .ok { options with contents := some text }
  | some _ => .error .misuse

/-- Takes in an argument that may be a flag. -/
def take (options : Options) : Text → Except Halt Options
  | '-' :: '-' :: word => options.raise? (Flag.ofWord? word)
  | '-' :: c :: letters =>
    (c :: letters).foldlM (fun options letter => options.raise? (Flag.ofLetter? letter)) options
  | text => options.setContents text

/-- Reads the arguments. -/
def ofArguments (arguments : List Text) : Except Halt Options := do
  let flagged ← (arguments.takeWhile (· != ['-', '-'])).foldlM take initial
  ((arguments.dropWhile (· != ['-', '-'])).drop 1).foldlM setContents flagged

example : ofArguments ["-fp".toList, "a".toList] = .ok ⟨true, true, some ['a']⟩ := by rfl

example : ofArguments ["-f".toList, "--file".toList] = .error .misuse := by rfl

end Options

end Calculator.CommandLine
