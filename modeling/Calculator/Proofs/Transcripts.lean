import Calculator.Proofs.Readings
import Calculator.Proofs.Recollection
import Calculator.Proofs.Stages
import Calculator.Script
import Mathlib.Data.List.Infix

/-!
# What a script prints

The lines of a script are **carried out** up to and including the first that
**leaves** the session, all in one session and whatever their results.  So what
a script prints is what these lines print, each in the environment that the
lines before it have left, and behind a line that leaves nothing is printed.

When more text is put behind a line feed, the lines before it stay what they
were, except that the last of them has now seen its end: it loses a carriage
return, or comes to be a line only now that it is empty.  A carriage return is
a blank and an empty line says nothing, so neither can be told from what is
printed: the two rows of lines are **alike**.

* `run_eq_session_run` — a script is one session over the lines that are carried out;
* `transcriptFrom_append_of_leaves`, `transcriptFrom_append_of_stays` — two rows of
  lines, one after the other;
* `alike_closed` — a line feed at the end of a text makes no difference;
* `transcript_append_feed` — two texts with a line feed in between;
* `transcriptFrom_of_error` — a line that fails is as good as left out, but for its item;
* `farewell_ends` — the farewell comes once at most, and last.
-/

namespace Calculator

namespace Session

/-- **What a statement must be to succeed**, outcome by outcome. -/
theorem perform_ok_cases {env : Environment} {statement : Statement} {outcome : Outcome}
    (h : (perform env statement).1 = .ok outcome) :
    (statement = .blank ∧ outcome = .nothing) ∨
      (statement = .command .help ∧ outcome = .help) ∨
      (statement = .command .exit ∧ outcome = .exit) ∨
      ((∃ name source, statement = .assignment name source) ∧ outcome = .assigned) ∨
      ∃ v, outcome = .value v := by
  cases statement with
  | blank => exact .inl ⟨rfl, (Except.ok.inj h).symm⟩
  | command command =>
      cases command with
      | help => exact .inr (.inl ⟨rfl, (Except.ok.inj h).symm⟩)
      | exit => exact .inr (.inr (.inl ⟨rfl, (Except.ok.inj h).symm⟩))
  | assignment name source =>
      obtain ⟨_, -, rfl⟩ := Except.map_eq_ok_iff.1 h
      exact .inr (.inr (.inr (.inl ⟨⟨name, source, rfl⟩, rfl⟩)))
  | query name =>
      obtain ⟨v, -, rfl⟩ := Except.map_eq_ok_iff.1 h
      exact .inr (.inr (.inr (.inr ⟨v, rfl⟩)))
  | expression text =>
      obtain ⟨v, -, rfl⟩ := Except.map_eq_ok_iff.1 h
      exact .inr (.inr (.inr (.inr ⟨v, rfl⟩)))

theorem perform_eq_exit_iff {env : Environment} {statement : Statement} :
    (perform env statement).1 = .ok .exit ↔ statement = .command .exit := by
  constructor
  · intro h
    rcases perform_ok_cases h with ⟨-, heq⟩ | ⟨-, heq⟩ | ⟨hexit, -⟩ | ⟨-, heq⟩ | ⟨v, heq⟩
    case inr.inr.inl => exact hexit
    all_goals cases heq
  · rintro rfl
    rfl

theorem perform_eq_nothing_iff {env : Environment} {statement : Statement} :
    (perform env statement).1 = .ok .nothing ↔ statement = .blank := by
  constructor
  · intro h
    rcases perform_ok_cases h with ⟨hblank, -⟩ | ⟨-, heq⟩ | ⟨-, heq⟩ | ⟨-, heq⟩ | ⟨v, heq⟩
    case inl => exact hblank
    all_goals cases heq
  · rintro rfl
    rfl

/-- What a line does is done by the statement that it is read as. -/
theorem execute_eq_ok_iff {env : Environment} {line : Text} {outcome : Outcome} :
    (execute env line).1 = .ok outcome ↔
      ∃ statement, Statement.parse line = .ok statement ∧
        (perform env statement).1 = .ok outcome := by
  rw [execute]
  cases Statement.parse line <;> simp

/-- A line has the result of a blank one only if it is blank. -/
theorem execute_eq_nothing_iff {env : Environment} {line : Text} :
    (execute env line).1 = .ok .nothing ↔ line.trim = [] := by
  rw [execute_eq_ok_iff, ← Statement.parse_eq_blank_iff]
  simp [perform_eq_nothing_iff]

end Session

namespace Script

open History (environment)

/-- A line leaves the session if it is the command to, blanks at its ends aside. -/
def Leaves (line : Text) : Prop :=
  line.trim = Command.exit.spelling

instance : DecidablePred Leaves := fun line =>
  inferInstanceAs (Decidable (line.trim = Command.exit.spelling))

/-- The lines that are carried out: those up to and including the first that leaves. -/
def carriedOut : List Text → List Text
  | [] => []
  | line :: lines => if Leaves line then [line] else line :: carriedOut lines

/-- **A line leaves the session exactly if its result says so**, in any environment. -/
theorem execute_eq_exit_iff {env : Environment} {line : Text} :
    (Session.execute env line).1 = .ok .exit ↔ Leaves line := by
  rw [Session.execute_eq_ok_iff, Leaves, ← Statement.parse_eq_command_iff]
  simp [Session.perform_eq_exit_iff]

/-! ## The lines that are carried out -/

theorem carriedOut_of_leaves {line : Text} (h : Leaves line) (lines : List Text) :
    carriedOut (line :: lines) = [line] := if_pos h

theorem carriedOut_of_not_leaves {line : Text} (h : ¬Leaves line) (lines : List Text) :
    carriedOut (line :: lines) = line :: carriedOut lines := if_neg h

/-- Lines that do not leave are all carried out, and so is what follows them. -/
theorem carriedOut_append_of_stays {first : List Text} (h : ∀ line ∈ first, ¬Leaves line)
    (second : List Text) : carriedOut (first ++ second) = first ++ carriedOut second := by
  induction first with
  | nil => rfl
  | cons line first ih =>
      obtain ⟨hline, hfirst⟩ := List.forall_mem_cons.1 h
      rw [List.cons_append, carriedOut_of_not_leaves hline, ih hfirst, List.cons_append]

theorem carriedOut_of_stays {lines : List Text} (h : ∀ line ∈ lines, ¬Leaves line) :
    carriedOut lines = lines := by
  have happend := carriedOut_append_of_stays h []
  rwa [List.append_nil, carriedOut, List.append_nil] at happend

/-- Behind a line that leaves nothing is carried out. -/
theorem carriedOut_append_of_leaves {first : List Text} (h : ∃ line ∈ first, Leaves line)
    (second : List Text) : carriedOut (first ++ second) = carriedOut first := by
  induction first with
  | nil => simp at h
  | cons line first ih =>
      rw [List.cons_append]
      by_cases hline : Leaves line
      · rw [carriedOut_of_leaves hline, carriedOut_of_leaves hline]
      · have hfirst : ∃ line ∈ first, Leaves line := by simpa [hline] using h
        rw [carriedOut_of_not_leaves hline, carriedOut_of_not_leaves hline, ih hfirst]

/-- **A script is one session over the lines that are carried out.** -/
theorem run_eq_session_run (env : Environment) (lines : List Text) :
    run env lines = Session.run env (carriedOut lines) := by
  induction lines generalizing env with
  | nil => rfl
  | cons line lines ih =>
      by_cases hline : Leaves line
      · have hexit : (Session.execute env line).1 = .ok .exit := execute_eq_exit_iff.2 hline
        rw [run_cons_exit hexit, carriedOut_of_leaves hline, Session.run_cons, hexit]
        rfl
      · have hstays : (Session.execute env line).1 ≠ .ok .exit := mt execute_eq_exit_iff.1 hline
        rw [run_cons_of_ne_exit hstays, carriedOut_of_not_leaves hline, Session.run_cons, ih]

/-! ## What rows of lines print -/

theorem transcriptFrom_eq (env : Environment) (lines : List Text) :
    transcriptFrom env lines = (Session.run env (carriedOut lines)).1.filterMap reply? := by
  rw [transcriptFrom, run_eq_session_run]

/-- Behind a line that leaves nothing is printed. -/
theorem transcriptFrom_append_of_leaves {first : List Text} (h : ∃ line ∈ first, Leaves line)
    (env : Environment) (second : List Text) :
    transcriptFrom env (first ++ second) = transcriptFrom env first := by
  rw [transcriptFrom_eq, transcriptFrom_eq, carriedOut_append_of_leaves h]

/-- Behind lines that do not leave the printing goes on, from the environment they left. -/
theorem transcriptFrom_append_of_stays {first : List Text} (h : ∀ line ∈ first, ¬Leaves line)
    (env : Environment) (second : List Text) :
    transcriptFrom env (first ++ second) =
      transcriptFrom env first ++ transcriptFrom (Session.run env first).2 second := by
  rw [transcriptFrom_eq, transcriptFrom_eq, transcriptFrom_eq, carriedOut_append_of_stays h,
    carriedOut_of_stays h, Session.run_append, List.filterMap_append]

/-- What the first of some lines prints, and then what the others print. -/
theorem transcriptFrom_cons (env : Environment) (line : Text) (lines : List Text) :
    transcriptFrom env (line :: lines) =
      (reply? (Session.execute env line).1).toList ++
        if Leaves line then [] else transcriptFrom (Session.execute env line).2 lines := by
  rw [transcriptFrom_eq]
  by_cases hline : Leaves line
  · rw [carriedOut_of_leaves hline, if_pos hline]
    cases h : reply? (Session.execute env line).1 <;> simp [h]
  · rw [carriedOut_of_not_leaves hline, if_neg hline, transcriptFrom_eq]
    cases h : reply? (Session.execute env line).1 <;> simp [h]

theorem transcriptFrom_singleton (env : Environment) (line : Text) :
    transcriptFrom env [line] = (reply? (Session.execute env line).1).toList := by
  rw [transcriptFrom_cons, show transcriptFrom (Session.execute env line).2 [] = [] from rfl,
    ite_self, List.append_nil]

/-- **A line that fails is as good as left out, but for its item.** -/
theorem transcriptFrom_of_error {env : Environment} {line : Text} {cause : Error}
    (h : (Session.execute env line).1 = .error cause) (lines : List Text) :
    transcriptFrom env (line :: lines) = .error cause :: transcriptFrom env lines := by
  have hexit : (Session.execute env line).1 ≠ .ok .exit := by simp [h]
  have hstays : ¬Leaves line := mt execute_eq_exit_iff.2 hexit
  have hsame : (Session.execute env line).2 = env := by
    rcases Session.execute_cases env line with ⟨_, _, _, -, -, heq⟩ | ⟨-, hsame⟩
    · simp [heq] at h
    · exact hsame
  rw [transcriptFrom_cons, h, hsame, if_neg hstays]
  rfl

/-- A line that prints nothing is blank, or an assignment that succeeded. -/
theorem reply?_execute_eq_none_iff {env : Environment} {line : Text} :
    reply? (Session.execute env line).1 = none ↔
      line.trim = [] ∨ (Session.execute env line).1 = .ok .assigned := by
  rw [reply?_eq_none_iff, Session.execute_eq_nothing_iff, or_comm]

/-! ## A line feed at the end -/

/-- A carriage return at the end of a line is a blank at its end. -/
theorem trim_dropReturn (line : Text) : Text.trim (dropReturn '\r' line) = line.trim := by
  rw [dropReturn]
  split
  · next hreturn =>
    have hlast : '\r' ∈ line.getLast? := by simpa using hreturn
    have hline : line.dropLast ++ ['\r'] = line := List.dropLast_append_getLast? _ hlast
    have hblank : ∀ c ∈ ['\r'], Text.isBlank c := List.forall_mem_singleton.2 rfl
    calc Text.trim line.dropLast
        = Text.trim (line.dropLast ++ ['\r']) := (Text.trim_append_blanks hblank _).symm
      _ = line.trim := by rw [hline]
  · rfl

/-- Two rows of lines are alike if nothing that is printed tells them apart, not even when
other lines follow. -/
structure Alike (first second : List Text) : Prop where
  leaves : (∃ line ∈ first, Leaves line) ↔ ∃ line ∈ second, Leaves line
  prints : ∀ env, transcriptFrom env first = transcriptFrom env second
  state : ∀ env, (Session.run env first).2 = (Session.run env second).2

namespace Alike

/-- Lines in front change nothing. -/
theorem append_left {first second : List Text} (h : Alike first second) (front : List Text) :
    Alike (front ++ first) (front ++ second) where
  leaves := by simp only [List.mem_append, or_and_right, exists_or, h.leaves]
  prints env := by
    by_cases hfront : ∃ line ∈ front, Leaves line
    · rw [transcriptFrom_append_of_leaves hfront, transcriptFrom_append_of_leaves hfront]
    · have hstays : ∀ line ∈ front, ¬Leaves line := by simpa using hfront
      rw [transcriptFrom_append_of_stays hstays, transcriptFrom_append_of_stays hstays, h.prints]
  state env := by rw [Session.run_append, Session.run_append, h.state]

/-- Nor do lines behind. -/
theorem transcriptFrom_append {first second : List Text} (h : Alike first second)
    (env : Environment) (back : List Text) :
    transcriptFrom env (first ++ back) = transcriptFrom env (second ++ back) := by
  by_cases hleaves : ∃ line ∈ first, Leaves line
  · rw [transcriptFrom_append_of_leaves hleaves,
      transcriptFrom_append_of_leaves (h.leaves.1 hleaves), h.prints]
  · have hfirst : ∀ line ∈ first, ¬Leaves line := by simpa using hleaves
    have hsecond : ∀ line ∈ second, ¬Leaves line := by simpa using mt h.leaves.2 hleaves
    rw [transcriptFrom_append_of_stays hfirst, transcriptFrom_append_of_stays hsecond, h.prints,
      h.state]

/-- Lines that differ in blanks at their ends only are alike. -/
theorem of_trim {line other : Text} (h : line.trim = other.trim) : Alike [line] [other] where
  leaves := by simp [Leaves, h]
  prints env := by rw [transcriptFrom_singleton, transcriptFrom_singleton, Session.execute_congr h]
  state env := by simp [Session.execute_congr h env]

/-- A blank line is like no line. -/
theorem of_blank {line : Text} (h : line.trim = []) : Alike [] [line] where
  leaves := by
    have hstays : ¬Leaves line := by
      rw [Leaves, h]
      decide
    simp [hstays]
  prints env := by
    rw [transcriptFrom_singleton, reply?_execute_eq_none_iff.2 (.inl h)]
    rfl
  state env := by
    have hblank : Session.execute env line = (.ok .nothing, env) := by
      rw [Session.execute, Statement.parse_eq_blank_iff.2 h]
      rfl
    rw [Session.run_cons, hblank]

end Alike

/-- What is printed for a text does not change when a line feed is put behind it. -/
theorem alike_closed (source : Text) : Alike source.lines (source ++ ['\n']).lines := by
  have hne : source.splitOn '\n' ≠ [] := List.splitOn_ne_nil _ _
  obtain ⟨closed, last, hsplit⟩ := (List.eq_nil_or_concat (source.splitOn '\n')).resolve_left hne
  rw [List.concat_eq_append] at hsplit
  have hopen : source.lines = closed.map (dropReturn '\r') ++ closeLines '\r' [last] := by
    rw [Text.lines, linesBy, hsplit, closeLines_append _ _ (List.cons_ne_nil _ _)]
  have hclosed : (source ++ ['\n']).lines =
      closed.map (dropReturn '\r') ++ [dropReturn '\r' last] := by
    rw [Text.lines, linesBy_append_feed, hsplit, List.map_append, linesBy_nil, List.append_nil]
    rfl
  rw [hopen, hclosed]
  apply Alike.append_left
  rw [closeLines]
  split
  · next hempty =>
    rw [List.isEmpty_iff.1 hempty]
    exact Alike.of_blank rfl
  · exact Alike.of_trim (trim_dropReturn last).symm

/-- **Two texts with a line feed in between** print what the first one prints and then, unless
that leaves, what the second one prints from the environment that the first one left. -/
theorem transcript_append_feed (first second : Text) :
    transcript (first ++ '\n' :: second) =
      if ∃ line ∈ first.lines, Leaves line then transcript first
      else transcript first ++
        transcriptFrom (run Environment.empty first.lines).2 second.lines := by
  have hlines : (first ++ '\n' :: second).lines = (first ++ ['\n']).lines ++ second.lines := by
    rw [Text.lines, Text.lines, linesBy_append_feed, linesBy_append_feed, linesBy_nil,
      List.append_nil]
    rfl
  have halike : transcript (first ++ '\n' :: second) =
      transcriptFrom Environment.empty (first.lines ++ second.lines) := by
    rw [transcript, hlines, (alike_closed first).transcriptFrom_append]
  rw [halike, transcript]
  split
  · next hleaves => exact transcriptFrom_append_of_leaves hleaves _ _
  · next hnone =>
    have hstays : ∀ line ∈ first.lines, ¬Leaves line := by simpa using hnone
    rw [transcriptFrom_append_of_stays hstays, run_eq_session_run, carriedOut_of_stays hstays]

/-! ## The farewell -/

/-- The farewell is no numeral. -/
theorem literal?_farewell : Decimal.literal? farewell = none := rfl

theorem head?_toList_append {s : String} {c : Char} (h : s.toList.head? = some c) (t : String) :
    (s ++ t).toList.head? = some c := by
  rw [String.toList_append, List.head?_append, h]
  rfl

/-- The help starts with a letter. -/
theorem head?_helpText : helpText.head? = some 'T' := by
  -- To see its first line is enough, and far less than to spell out the whole text.
  have hfirst : "This calculator supports the following operators:\n".toList.head? = some 'T' := by
    decide +kernel
  exact head?_toList_append (head?_toList_append (head?_toList_append (head?_toList_append
    (head?_toList_append (head?_toList_append hfirst _) _) _) _) _) _

/-- Nothing else looks like the farewell. -/
theorem reply?_eq_farewell_iff {result : Except Error Outcome} :
    reply? result = some (.ok farewell) ↔ result = .ok .exit := by
  match result with
  | .ok (.value v) =>
      have hrender : Decimal.render v ≠ farewell := by
        intro heq
        have hread := Decimal.literal?_render v
        rw [heq, literal?_farewell] at hread
        cases hread
      simp [reply?, hrender]
  | .ok .help =>
      have hhelp : helpText ≠ farewell := by
        intro heq
        have hhead := head?_helpText
        rw [heq] at hhead
        cases hhead
      simp [reply?, hhelp]
  | .ok .exit | .ok .assigned | .ok .nothing | .error _ => simp [reply?]

/-- **The farewell comes once at most, and last.** -/
theorem farewell_ends (env : Environment) (lines : List Text) :
    ∃ items, .ok farewell ∉ items ∧ transcriptFrom env lines =
      items ++ if ∃ line ∈ lines, Leaves line then [.ok farewell] else [] := by
  induction lines generalizing env with
  | nil => exact ⟨[], by simp, by simp [transcriptFrom]⟩
  | cons line lines ih =>
      rw [transcriptFrom_cons]
      by_cases hline : Leaves line
      · refine ⟨[], by simp, ?_⟩
        rw [execute_eq_exit_iff.2 hline]
        simp [hline, reply?]
      · obtain ⟨items, hnone, heq⟩ := ih (Session.execute env line).2
        have hreply : reply? (Session.execute env line).1 ≠ some (.ok farewell) :=
          mt reply?_eq_farewell_iff.1 (mt execute_eq_exit_iff.1 hline)
        refine ⟨(reply? (Session.execute env line).1).toList ++ items, ?_, ?_⟩
        · simp [hnone, hreply]
        · simp [heq, hline]

/-- **A script is a session, and scripts compose.**  What is printed for a text is what is printed
by its lines up to and including the first that leaves, in one session.  So it comes in three
parts at any line that is carried out: what the lines before it print, its own item, if it is
neither blank nor an assignment that succeeded, and what the lines after it print, unless it
leaves.  If the line fails, all that it does is to add its item.  More text behind a line feed
adds what it prints in the environment that is there by then, or nothing after a line that
leaves; so nothing printed before is lost.  The farewell is printed if a line leaves, and then
once, as the last item. -/
theorem transcript_composes (first second : Text) :
    transcript first =
        (Session.run Environment.empty (carriedOut first.lines)).1.filterMap reply? ∧
      (∀ front line back, first.lines = front ++ line :: back → (∀ l ∈ front, ¬Leaves l) →
        transcript first = transcriptFrom Environment.empty front ++
            ((reply? (Session.execute (environment front) line).1).toList ++
              if Leaves line then []
              else transcriptFrom (Session.execute (environment front) line).2 back) ∧
          (reply? (Session.execute (environment front) line).1 = none ↔
            line.trim = [] ∨ (Session.execute (environment front) line).1 = .ok .assigned) ∧
          ∀ cause, (Session.execute (environment front) line).1 = .error cause →
            transcript first = transcriptFrom Environment.empty front ++
              .error cause :: transcriptFrom (environment front) back) ∧
      transcript (first ++ '\n' :: second) =
        (if ∃ line ∈ first.lines, Leaves line then transcript first
        else transcript first ++
          transcriptFrom (run Environment.empty first.lines).2 second.lines) ∧
      transcript first <+: transcript (first ++ '\n' :: second) ∧
      ∃ items, .ok farewell ∉ items ∧ transcript first =
        items ++ if ∃ line ∈ first.lines, Leaves line then [.ok farewell] else [] := by
  refine ⟨transcriptFrom_eq _ _, ?_, transcript_append_feed first second, ?_, farewell_ends _ _⟩
  · intro front line back hlines hfront
    have hparts : transcript first = transcriptFrom Environment.empty front ++
        transcriptFrom (environment front) (line :: back) := by
      rw [transcript, hlines, transcriptFrom_append_of_stays hfront, environment]
    refine ⟨?_, reply?_execute_eq_none_iff, ?_⟩
    · rw [hparts, transcriptFrom_cons]
    · intro cause hcause
      rw [hparts, transcriptFrom_of_error hcause]
  · rw [transcript_append_feed]
    split
    · exact List.prefix_rfl
    · exact List.prefix_append _ _

/-- A name that is not bound fails, a return is dropped at the seam, and what follows the line
that leaves is not looked at. -/
theorem transcript_composes_seam :
    transcript "a = 4\nq\na\r".toList = [.error (.eval (.unknownVariable ['q'])), .ok ['4']] ∧
      transcript ("a = 4\nq\na\r".toList ++ '\n' :: "/exit\n9".toList) =
        [.error (.eval (.unknownVariable ['q'])), .ok ['4'], .ok farewell] ∧
      transcript ("/exit".toList ++ '\n' :: "9".toList) = [.ok farewell] := by
  have hseam := transcript_composes "a = 4\nq\na\r".toList "/exit\n9".toList
  have hleft := transcript_composes "/exit".toList "9".toList
  have hlines : Text.lines "a = 4\nq\na\r".toList =
      ["a = 4".toList] ++ "q".toList :: ["a\r".toList] := by rfl
  have hstays : ∀ line ∈ ["a = 4".toList], ¬Leaves line := by decide
  have hcause : (Session.execute (environment ["a = 4".toList]) "q".toList).1 =
      .error (.eval (.unknownVariable ['q'])) := by rfl
  have hfails := (hseam.2.1 _ _ _ hlines hstays).2.2 _ hcause
  refine ⟨?_, ?_, ?_⟩
  · rw [hfails]
    rfl
  · rw [hseam.2.2.1]
    rfl
  · rw [hleft.2.2.1]
    rfl

end Script

end Calculator
