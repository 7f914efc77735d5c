import Calculator.Proofs.Alphabet
import Calculator.Proofs.Assignments
import Calculator.Proofs.BoundNames
import Calculator.Proofs.Layout

/-!
# Printed values are read back

An integer is read in two places: as a literal, on the right of an assignment,
and as an expression.  A literal takes its sign and its digits as they are.  To
an expression the sign is a symbol of its own, which comes through collapsing
and is joined to the number only then.  Nevertheless the two read the same
integer from all that writes one, except that an expression knows no plus sign
in front of a number.

A value is printed in the way that integers are written, so it may be put into
an assignment, and asking for the name then prints it again.

* `tokenize_numeral`, `tokenize_sub_numeral`, `tokenize_add_numeral` — the tokens of
  a numeral, with a sign in front or none;
* `evaluate_of_spells` — a literal is an expression of the same value, unless it has
  a plus sign in front;
* `transcriptFrom_of_assigned` — an assignment that succeeds prints nothing;
* `transcriptFrom_read_back` — an integer is assigned and asked for.
-/

namespace Calculator

open Text
open Token (number operator ofMark?)

section Numeral

variable {digits : Text} (h : digits.isNumeral)
include h

theorem blankless_of_isNumeral : digits.Blankless := fun _ hc =>
  not_isBlank_of_isDigit (isDigit_of_mem_numeral h hc)

theorem collapse_numeral : digits.collapse = digits :=
  collapse_eq_self ((isChain_numeral h).imp fun _ _ => bothSigns_of_joined)

/-- The sign in front of a numeral is a run of its own. -/
theorem collapse_sign_numeral (s : Sign) : collapse (s.symbol :: digits) = s.symbol :: digits := by
  have hhead : ∀ c ∈ digits.head?, Sign.ofSymbol? c = none := by
    intro c hc
    cases hsign : Sign.ofSymbol? c with
    | none => rfl
    | some t =>
        have hdigit := isDigit_of_mem_numeral h (List.mem_of_mem_head? hc)
        rw [(sign_class hsign).2.1] at hdigit
        cases hdigit
  rw [collapse_symbol_cons, collapse_numeral h, putSign_of_head hhead]

theorem tokenize_numeral : tokenize digits = .ok [number (Decimal.value digits)] := by
  refine tokenize_eq_ok_iff.2 ⟨[number (Decimal.value digits)], ?_, rfl⟩
  rw [stripBlanks_eq_self_iff.2 (blankless_of_isNumeral h), collapse_numeral h, lex_numeral h]
  rfl

/-- The pieces of a numeral with a sign in front. -/
theorem lex_sign_numeral {s : Sign} {op : Operator} (hop : ofMark? s.symbol = some (operator op)) :
    lex (stripBlanks (s.symbol :: digits)).collapse =
      [operator op, number (Decimal.value digits)].map Piece.token := by
  have hblankless : Blankless (s.symbol :: digits) :=
    List.forall_mem_cons.2 ⟨by cases s <;> rfl, blankless_of_isNumeral h⟩
  rw [stripBlanks_eq_self_iff.2 hblankless, collapse_sign_numeral h, lex_mark_cons hop,
    lex_numeral h]
  rfl

/-- A minus sign in front of a numeral is part of the number. -/
theorem tokenize_sub_numeral :
    tokenize ('-' :: digits) = .ok [number (-(Decimal.value digits : Int))] :=
  tokenize_eq_ok_iff.2 ⟨_, lex_sign_numeral (s := .minus) h rfl, rfl⟩

/-- A plus sign is not. -/
theorem tokenize_add_numeral :
    tokenize ('+' :: digits) = .ok [operator .add, number (Decimal.value digits)] :=
  tokenize_eq_ok_iff.2 ⟨_, lex_sign_numeral (s := .plus) h rfl, rfl⟩

end Numeral

namespace Session

/-- **A literal is an expression of the same value**, unless it has a plus sign in front. -/
theorem evaluate_of_spells {text : Text} {n : Int} (h : Decimal.Spells text n)
    (env : Environment) :
    evaluate env text =
      if text.head? = some '+' then .error (.eval (.missingOperand .add)) else .ok n := by
  cases h with
  | unsigned hdigits =>
      have hplus : text.head? ≠ some '+' := by
        intro hhead
        cases isDigit_of_mem_numeral hdigits (List.mem_of_mem_head? hhead)
      rw [if_neg hplus, ← Decimal.value_eq_placeValue,
        evaluate_of_ok (tokenize_numeral hdigits) rfl]
      rfl
  | plus hdigits =>
      rw [evaluate_of_ok (tokenize_add_numeral hdigits) rfl]
      rfl
  | minus hdigits =>
      rw [← Decimal.value_eq_placeValue, evaluate_of_ok (tokenize_sub_numeral hdigits) rfl]
      rfl

end Session

namespace Script

open Decimal (Spells render literal?)

/-- An assignment that succeeds prints nothing. -/
theorem transcriptFrom_of_assigned {env next : Environment} {line : Text}
    (h : Session.execute env line = (.ok .assigned, next)) (lines : List Text) :
    transcriptFrom env (line :: lines) = transcriptFrom next lines := by
  have hexit : (Session.execute env line).1 ≠ .ok .exit := by simp [h]
  have hstays : ¬Leaves line := mt execute_eq_exit_iff.2 hexit
  rw [transcriptFrom_cons, h, if_neg hstays]
  rfl

/-- **An integer is assigned and asked for**, and is printed again. -/
theorem transcriptFrom_read_back {name text : Text} {n : Int} (hname : name.isIdentifier)
    (htext : Spells text n) (env : Environment) :
    transcriptFrom env [name ++ " = ".toList ++ text, name] = [.ok (render n)] := by
  have hspace : ∀ c ∈ [' '], isBlank c := List.forall_mem_singleton.2 rfl
  have hwritten : Session.execute env (name ++ [' '] ++ '=' :: ([' '] ++ text)) =
      (.ok .assigned, env.assign name n) :=
    Session.execute_written hname (.literal htext) rfl hspace hspace
  have hassign : Session.execute env (name ++ " = ".toList ++ text) =
      (.ok .assigned, env.assign name n) := by
    simpa using hwritten
  have hask := Session.execute_name hname (Environment.lookup_assign_self env name n)
  rw [transcriptFrom_of_assigned hassign, transcriptFrom_singleton, hask]
  rfl

/-- **What is printed for a text with more lines behind it**, however they are laid out. -/
theorem output_append_lines {source whole : Text} {lines : List Text}
    (hstays : ∀ line ∈ source.lines, ¬Leaves line) (hlines : ∀ line ∈ lines, '\n' ∉ line)
    (hwhole : Relaid whole (source ++ '\n' :: Printed.onLines lines)) :
    output .full whole =
      output .full source ++ transcriptFrom (run Environment.empty source.lines).2 lines := by
  have hleaves : ¬∃ line ∈ source.lines, Leaves line := by simpa using hstays
  calc output .full whole
      = transcript (source ++ '\n' :: Printed.onLines lines) :=
        output_congr (relaid_iff.1 hwhole) .full
    _ = transcript source ++ transcriptFrom (run Environment.empty source.lines).2
          (Printed.onLines lines).lines := by
        rw [transcript_append_feed, if_neg hleaves]
    _ = transcript source ++ transcriptFrom (run Environment.empty source.lines).2 lines := by
        rw [transcriptFrom_gist, ← substance, substance_onLines hlines, ← transcriptFrom_gist]

/-- **Printed values are read back.**  What is read as a literal is a numeral with one sign in front
or none, and the integer is the sum of its digits by their places, with that sign.  As an expression
it has the same value, whatever the variables are, except that a plus sign in front is an operator
without a left operand.  Any integer, as it is written, is read as that integer.  So when a script
that does not leave has printed an integer, two more lines, one that assigns it to a name and one
that asks for the name, print it once more and nothing else, however the lines are laid out. -/
theorem printed_values_read_back :
    (∀ text n, literal? text = some n ↔ Spells text n) ∧
      (∀ env text n, Spells text n → Session.evaluate env text =
        if text.head? = some '+' then .error (.eval (.missingOperand .add)) else .ok n) ∧
      (∀ n : Int, literal? (render n) = some n) ∧
      ∀ source name text whole : Text, (∀ line ∈ source.lines, ¬Leaves line) →
        name.isIdentifier → .ok text ∈ output .full source → (∃ n, Spells text n) →
        Relaid whole (source ++ '\n' :: Printed.onLines [name ++ " = ".toList ++ text, name]) →
        output .full whole = output .full source ++ [.ok text] := by
  refine ⟨fun text n => Decimal.literal?_eq_some_iff, ?_, Decimal.literal?_render, ?_⟩
  · intro env text n htext
    exact Session.evaluate_of_spells htext env
  · intro source name text whole hstays hname hprinted hnumeral hwhole
    obtain ⟨n, hspells⟩ := hnumeral
    have hrender : text = render n :=
      (literal?_of_mem_output hprinted n).1 (Decimal.literal?_eq_some_iff.2 hspells)
    have hfeed : ∀ {line : Text}, line.Blankless → '\n' ∉ line :=
      fun hline hmem => absurd (hline _ hmem) (by decide)
    have hask : '\n' ∉ name := hfeed (blankless_of_isIdentifier hname)
    have hassign : '\n' ∉ name ++ " = ".toList ++ text := by
      simp only [List.mem_append, not_or]
      exact ⟨⟨hask, by decide⟩, hfeed (Statement.notMem_of_writtenAs (.literal hspells)).1⟩
    have hlines : ∀ line ∈ [name ++ " = ".toList ++ text, name], '\n' ∉ line :=
      List.forall_mem_cons.2 ⟨hassign, List.forall_mem_singleton.2 hask⟩
    rw [output_append_lines hstays hlines hwhole, transcriptFrom_read_back hname hspells,
      ← hrender]

/-- A negative integer behind a text that ends with a line feed, and zeros in front of a zero with a
minus sign. -/
theorem printed_values_read_back_negative :
    output .full "a = 6\n1 - 8\n x = -7\r\nx".toList = [.ok "-7".toList, .ok "-7".toList] ∧
      Session.evaluate Environment.empty "-00".toList = .ok 0 ∧
      literal? "+042".toList = some 42 := by
  obtain ⟨hliteral, hexpression, -, hscript⟩ := printed_values_read_back
  have hnumeral : Text.isNumeral ['7'] ∧ Text.isNumeral "00".toList ∧
      Text.isNumeral "042".toList := by decide
  have hseven : Spells "-7".toList (-7) := .minus hnumeral.1
  have hzero : Spells "-00".toList 0 := .minus hnumeral.2.1
  have hplus : Spells "+042".toList 42 := .plus hnumeral.2.2
  have hfull : output .full "a = 6\n1 - 8\n".toList = [.ok "-7".toList] := by rfl
  have hprinted : .ok "-7".toList ∈ output .full "a = 6\n1 - 8\n".toList := by
    rw [hfull]
    exact List.mem_singleton_self _
  refine ⟨?_, ?_, (hliteral _ _).2 hplus⟩
  · have hwhole := hscript "a = 6\n1 - 8\n".toList ['x'] "-7".toList
      "a = 6\n1 - 8\n x = -7\r\nx".toList (by decide) (by decide) hprinted ⟨-7, hseven⟩
      (relaid_iff.2 (by decide))
    rw [hwhole, hfull]
    rfl
  · rw [hexpression _ _ _ hzero]
    rfl

end Script

end Calculator
