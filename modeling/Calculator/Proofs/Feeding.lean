import Calculator.CommandLine
import Calculator.Proofs.EncodedLines
import Calculator.Proofs.Transcripts

/-!
# Three ways to feed a script

A script comes as an argument, in a file, or line by line on the standard input.
The first two are carried out as a whole, and the third is a conversation, which
has lines for its input and not a text, prints while it goes on, and ends by
rules of its own.  Nevertheless all three print the same.  The lines of the
standard input are taken as they stand, so this is about input that does not
edit itself: what an editor of lines would make of a backspace is left out.

A conversation may also meet what is no script at all.  It has then answered the
**legible** lines, those before the first that is no UTF-8, just as it would have
without the rest, and all that it adds is to tell that it cannot read on.  If a
legible line has left the session it does not get that far.

* `ofItems_eq` — what is printed on either channel, item by item;
* `hold_eq` — what a conversation prints, for any lines;
* `run_of_feeds` — the three ways agree;
* `run_input` — any bytes on the standard input are a conversation.
-/

namespace Calculator

namespace Printed

/-- The texts among items, in order. -/
def answers (items : List (Except Error Text)) : List Text :=
  items.filterMap Except.toOption

/-- The messages of the failures among items, in order. -/
def complaints (items : List (Except Error Text)) : List Text :=
  items.filterMap fun
    | .ok _ => none
    | .error cause => some cause.message

/-- Texts with a line feed after each. -/
def onLines (texts : List Text) : Text :=
  texts.flatMap fun text => text ++ ['\n']

theorem onLines_cons (text : Text) (texts : List Text) :
    onLines (text :: texts) = text ++ '\n' :: onLines texts := by
  simp [onLines]

/-- **What items print**: the texts on one channel, the messages of the failures on the other. -/
theorem ofItems_eq (items : List (Except Error Text)) :
    ofItems items = ⟨onLines (answers items), onLines (complaints items)⟩ := by
  induction items with
  | nil => rfl
  | cons item items ih =>
      rw [ofItems_cons, ih]
      cases item <;> rfl

end Printed

namespace Conversation

open Script (Leaves transcriptFrom)

/-- The texts of the lines before the first that is no UTF-8. -/
def legible : List (List UInt8) → List Text
  | [] => []
  | line :: lines =>
    match Utf8.decode? line with
    | some text => text :: legible lines
    | none => []

/-- Some line is no UTF-8, and no line before it leaves the session. -/
def BreaksOff (lines : List (List UInt8)) : Prop :=
  (∃ line ∈ lines, Utf8.decode? line = none) ∧ ∀ text ∈ legible lines, ¬Leaves text

instance : DecidablePred BreaksOff := fun lines =>
  inferInstanceAs (Decidable ((∃ line ∈ lines, Utf8.decode? line = none) ∧
    ∀ text ∈ legible lines, ¬Leaves text))

theorem legible_cons_of_bytes {line : List UInt8} (h : Utf8.decode? line = none)
    (lines : List (List UInt8)) : legible (line :: lines) = [] := by
  rw [legible, h]

theorem legible_cons_of_text {line : List UInt8} {text : Text} (h : Utf8.decode? line = some text)
    (lines : List (List UInt8)) : legible (line :: lines) = text :: legible lines := by
  rw [legible, h]

theorem not_breaksOff_nil : ¬BreaksOff [] := by
  simp [BreaksOff]

theorem breaksOff_cons_of_bytes {line : List UInt8} (h : Utf8.decode? line = none)
    (lines : List (List UInt8)) : BreaksOff (line :: lines) := by
  simp [BreaksOff, legible_cons_of_bytes h, h]

theorem breaksOff_cons_of_text {line : List UInt8} {text : Text}
    (h : Utf8.decode? line = some text) (lines : List (List UInt8)) :
    BreaksOff (line :: lines) ↔ ¬Leaves text ∧ BreaksOff lines := by
  simp [BreaksOff, legible_cons_of_text h, h, and_left_comm]

/-- **What a conversation prints**: what its legible lines print, and then that it cannot be
read on, if it breaks off. -/
theorem hold_eq (env : Environment) (lines : List (List UInt8)) :
    hold env lines = (Printed.ofItems (transcriptFrom env (legible lines))).append
      (if BreaksOff lines then Printed.complaint readFailure else Printed.nothing) := by
  induction lines generalizing env with
  | nil =>
      rw [if_neg not_breaksOff_nil, Printed.append_nothing]
      rfl
  | cons line lines ih =>
      cases hdecode : Utf8.decode? line with
      | none =>
          rw [hold_cons_of_bytes hdecode, legible_cons_of_bytes hdecode,
            if_pos (breaksOff_cons_of_bytes hdecode lines)]
          rfl
      | some text =>
          rw [hold_cons_of_text hdecode, legible_cons_of_text hdecode,
            Script.transcriptFrom_cons, Printed.ofItems_append, Printed.append_assoc,
            printedFor_eq]
          congr 1
          by_cases hleaves : Leaves text
          · have hon : ¬BreaksOff (line :: lines) := by
              simp [breaksOff_cons_of_text hdecode, hleaves]
            rw [Script.execute_eq_exit_iff.2 hleaves, if_pos hleaves, if_neg hon]
            rfl
          · have hexit : (Session.execute env text).1 ≠ .ok .exit :=
              mt Script.execute_eq_exit_iff.1 hleaves
            have hbreaks : BreaksOff (line :: lines) ↔ BreaksOff lines := by
              simp [breaksOff_cons_of_text hdecode, hleaves]
            rw [if_neg hleaves, if_congr hbreaks rfl rfl, ← ih]
            split
            · next heq => exact absurd heq hexit
            · rfl

/-- Lines that were written from texts are all legible. -/
theorem legible_map_encode (texts : List Text) : legible (texts.map Utf8.encode) = texts := by
  induction texts with
  | nil => rfl
  | cons text texts ih =>
      rw [List.map_cons, legible_cons_of_text (Utf8.decode?_encode text), ih]

theorem not_breaksOff_map_encode (texts : List Text) :
    ¬BreaksOff (texts.map Utf8.encode) := by
  simp [BreaksOff, Utf8.decode?_encode]

/-- **A script on the standard input** prints what it prints as a whole. -/
theorem hold_encode (source : Text) :
    hold Environment.empty (byteLines (Utf8.encode source)) =
      Printed.ofItems (Script.transcript source) := by
  rw [Utf8.byteLines_encode, hold_eq, if_neg (not_breaksOff_map_encode _), legible_map_encode,
    Printed.append_nothing, Script.transcript]

end Conversation

namespace CommandLine

/-- The three ways in which arguments, files and the standard input feed a script: it is the
argument after two dashes, it is in the file that the arguments name, or there is no contents
among the arguments and it is on the standard input. -/
inductive Feeds (readFile : Text → Option (List UInt8)) (source : Text) :
    List Text → List UInt8 → Prop
  | argument (stdin : List UInt8) : Feeds readFile source [['-', '-'], source] stdin
  | file {arguments : List Text} {name : Text} (stdin : List UInt8)
      (asks : Options.ofArguments arguments = .ok ⟨true, false, some name⟩)
      (holds : readFile name = some (Utf8.encode source)) : Feeds readFile source arguments stdin
  | input {arguments : List Text} {fromFile lastOnly : Bool}
      (asks : Options.ofArguments arguments = .ok ⟨fromFile, lastOnly, none⟩) :
      Feeds readFile source arguments (Utf8.encode source)

theorem run_file {arguments : List Text} {name source : Text}
    {readFile : Text → Option (List UInt8)}
    (hasks : Options.ofArguments arguments = .ok ⟨true, false, some name⟩)
    (hholds : readFile name = some (Utf8.encode source)) (stdin : List UInt8) :
    run arguments readFile stdin = runScript .full source := by
  simp [run, hasks, hholds, runFile, Utf8.decode?_encode, Options.mode]

theorem run_input {arguments : List Text} {fromFile lastOnly : Bool}
    (hasks : Options.ofArguments arguments = .ok ⟨fromFile, lastOnly, none⟩)
    (readFile : Text → Option (List UInt8)) (stdin : List UInt8) :
    run arguments readFile stdin =
      .success (Conversation.hold Environment.empty (byteLines stdin)) := by
  simp [run, hasks]

/-- **The three ways agree.** -/
theorem run_of_feeds {readFile : Text → Option (List UInt8)} {source : Text}
    {arguments : List Text} {stdin : List UInt8} (h : Feeds readFile source arguments stdin) :
    run arguments readFile stdin = runScript .full source := by
  cases h with
  | argument stdin => exact run_dashes source readFile stdin
  | file stdin asks holds => exact run_file asks holds stdin
  | input asks =>
      rw [run_input asks, Conversation.hold_encode]
      rfl

/-- **A script is the same however it is fed.**  As an argument, in a file or on the standard
input, it ends with code 0, the texts of its transcript are printed on one channel and the
messages of its failures on the other, each on a line of its own and in order.  And whatever
bytes the standard input holds, the lines before the first that is no UTF-8 are answered as the
lines of a script are; if none of them leaves the session, what follows is the one complaint
that the input cannot be read, and the code is 0 all the same. -/
theorem script_is_fed_alike (readFile : Text → Option (List UInt8)) :
    (∀ source arguments stdin, Feeds readFile source arguments stdin →
      run arguments readFile stdin =
        ⟨⟨Printed.onLines (Printed.answers (Script.output .full source)),
          Printed.onLines (Printed.complaints (Script.output .full source))⟩, 0⟩) ∧
      ∀ arguments fromFile lastOnly stdin,
        Options.ofArguments arguments = .ok ⟨fromFile, lastOnly, none⟩ →
        run arguments readFile stdin =
          ⟨⟨Printed.onLines (Printed.answers (Script.transcriptFrom Environment.empty
              (Conversation.legible (byteLines stdin)))),
            Printed.onLines (Printed.complaints (Script.transcriptFrom Environment.empty
              (Conversation.legible (byteLines stdin)))) ++
              if Conversation.BreaksOff (byteLines stdin) then Conversation.readFailure ++ ['\n']
              else []⟩, 0⟩ := by
  constructor
  · intro source arguments stdin hfeeds
    rw [run_of_feeds hfeeds, runScript, Printed.ofItems_eq]
    rfl
  · intro arguments fromFile lastOnly stdin hasks
    rw [run_input hasks, Conversation.hold_eq, Printed.ofItems_eq]
    split
    · simp [Report.success, Printed.append, Printed.complaint]
    · simp [Report.success]

/-- A script with a failure, a return at its end and a line after it has left, and bytes that are
no UTF-8 after a line that is. -/
theorem script_is_fed_alike_samples :
    run [['-', '-'], "1 / 0\n6 * 7\r\n/exit\n8\r".toList] (fun _ => none) [] =
        ⟨⟨"42\nBye!\n".toList, "Division by zero\n".toList⟩, 0⟩ ∧
      run ["-f".toList, "s".toList]
          (fun _ => some (Utf8.encode "1 / 0\n6 * 7\r\n/exit\n8\r".toList)) [] =
        ⟨⟨"42\nBye!\n".toList, "Division by zero\n".toList⟩, 0⟩ ∧
      run ["-p".toList] (fun _ => none) (Utf8.encode "1 / 0\n6 * 7\r\n/exit\n8\r".toList) =
        ⟨⟨"42\nBye!\n".toList, "Division by zero\n".toList⟩, 0⟩ ∧
      run [] (fun _ => none) [0x31, 0x0A, 0xFF, 0x0A, 0x32] =
        ⟨⟨"1\n".toList, Conversation.readFailure ++ ['\n']⟩, 0⟩ := by
  have hscript := fun readFile => (script_is_fed_alike readFile).1
    "1 / 0\n6 * 7\r\n/exit\n8\r".toList
  refine ⟨?_, ?_, ?_, ?_⟩
  · rw [hscript _ _ _ (.argument [])]
    rfl
  · rw [hscript _ _ _ (.file [] (by rfl) rfl)]
    rfl
  · rw [hscript _ _ _ (.input (by rfl))]
    rfl
  · rw [(script_is_fed_alike _).2 [] false false _ (by rfl)]
    rfl

end CommandLine

end Calculator
