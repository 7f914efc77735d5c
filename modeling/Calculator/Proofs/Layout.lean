import Calculator.Proofs.Feeding
import Calculator.Proofs.LastValue
import Mathlib.Logic.Relation

/-!
# Layout

A script may be laid out in other ways: a line feed may become a return and a
line feed, lines may be indented or followed by blanks, blank lines may come in
between, and the last line may be closed or left open.  A text is **relaid** by
any number of these, in either direction.

The **substance** of a text is what its lines say once they are trimmed, without
those that are blank.  Relaying keeps the substance, and the substance is all
that is kept: a text can be relaid into its substance, one line feed after each
line.  Nothing else of a text is printed either, in any mode.

* `substance_append_feed` — a line feed keeps the substance of two texts apart;
* `substance_of_step` — one change of the layout keeps the substance;
* `relaid_onLines` — every text can be relaid into its substance;
* `relaid_iff` — so two texts are relaid exactly if they have the same substance;
* `transcriptFrom_gist`, `output_congr` — what is printed for a text depends on its substance alone.
-/

namespace Calculator

namespace Text

/-- What lines say, blanks at their ends and blank lines aside. -/
def gist (lines : List Text) : List Text :=
  (lines.map trim).filter fun line => !line.isEmpty

/-- What the lines of a text say. -/
def substance (source : Text) : List Text :=
  gist source.lines

/-- A line begins behind this. -/
def BeginsLine (front : Text) : Prop :=
  front = [] ∨ ∃ before, front = before ++ ['\n']

/-- A line ends in front of this. -/
def EndsLine (back : Text) : Prop :=
  back = [] ∨ ∃ after, back = '\n' :: after ∨ back = '\r' :: '\n' :: after

/-- Blanks that stay on one line. -/
def OnOneLine (blanks : Text) : Prop :=
  (∀ c ∈ blanks, isBlank c) ∧ '\n' ∉ blanks

/-- One change of the layout. -/
inductive Relays : Text → Text → Prop where
  /-- A line feed becomes a return and a line feed. -/
  | returned (front back : Text) : Relays (front ++ '\n' :: back) (front ++ '\r' :: '\n' :: back)
  /-- Blanks come in front of a line. -/
  | indented {front blanks : Text} (back : Text) : BeginsLine front → OnOneLine blanks →
      Relays (front ++ back) (front ++ blanks ++ back)
  /-- Blanks come behind a line. -/
  | trailed (front : Text) {blanks back : Text} : EndsLine back → OnOneLine blanks →
      Relays (front ++ back) (front ++ blanks ++ back)
  /-- A blank line comes in. -/
  | spaced {front blanks : Text} (back : Text) : BeginsLine front → OnOneLine blanks →
      Relays (front ++ back) (front ++ blanks ++ '\n' :: back)
  /-- A line feed comes at the end. -/
  | closed (source : Text) : Relays source (source ++ ['\n'])

/-- Any changes of the layout, made or undone. -/
def Relaid : Text → Text → Prop :=
  Relation.EqvGen Relays

theorem Relays.relaid {source other : Text} (h : Relays source other) : Relaid source other :=
  .rel _ _ h

theorem Relaid.symm {source other : Text} (h : Relaid source other) : Relaid other source :=
  Relation.EqvGen.symm _ _ h

theorem Relaid.trans {first second third : Text} (h : Relaid first second)
    (hmore : Relaid second third) : Relaid first third :=
  Relation.EqvGen.trans _ _ _ h hmore

/-! ## The substance of a text -/

@[simp] theorem gist_nil : gist [] = [] := rfl

@[simp] theorem gist_append (first second : List Text) :
    gist (first ++ second) = gist first ++ gist second := by
  simp [gist]

theorem gist_cons_of_blank {line : Text} (h : line.trim = []) (lines : List Text) :
    gist (line :: lines) = gist lines := by
  simp [gist, h]

theorem gist_cons_of_not_blank {line : Text} (h : line.trim ≠ []) (lines : List Text) :
    gist (line :: lines) = line.trim :: gist lines := by
  simp [gist, h]

/-- The gist of lines depends on what is left of them when they are trimmed. -/
theorem gist_congr {first second : List Text} (h : first.map trim = second.map trim) :
    gist first = gist second := by
  rw [gist, h, gist]

/-- How the last line is closed makes no difference. -/
theorem gist_closeLines (stretches : List Text) :
    gist (closeLines '\r' stretches) = gist stretches := by
  induction stretches using closeLines.induct with
  | case1 => rfl
  | case2 unfinished hempty =>
      rw [closeLines, if_pos hempty, List.isEmpty_iff.1 hempty]
      rfl
  | case3 unfinished hsome => rw [closeLines, if_neg hsome]
  | case4 line following hmore ih =>
      have hline : gist [dropReturn '\r' line] = gist [line] :=
        gist_congr (by simp [Script.trim_dropReturn])
      rw [closeLines, ← List.singleton_append, gist_append, ih, hline, ← gist_append]
      · rfl
      · exact hmore

theorem substance_eq (source : Text) : substance source = gist (source.splitOn '\n') :=
  gist_closeLines _

/-- **A line feed keeps the substance of two texts apart.** -/
theorem substance_append_feed (first second : Text) :
    substance (first ++ '\n' :: second) = substance first ++ substance second := by
  rw [substance_eq, substance_eq, substance_eq, List.splitOn_append_cons_self, gist_append]

theorem substance_of_line {line : Text} (h : '\n' ∉ line) : substance line = gist [line] := by
  rw [substance_eq, List.splitOn_eq_singleton h]

/-- Lines that are written one after the other. -/
theorem substance_onLines {lines : List Text} (h : ∀ line ∈ lines, '\n' ∉ line) :
    substance (Printed.onLines lines) = gist lines := by
  induction lines with
  | nil => rfl
  | cons line lines ih =>
      obtain ⟨hline, hlines⟩ := List.forall_mem_cons.1 h
      rw [Printed.onLines_cons, substance_append_feed, substance_of_line hline, ih hlines,
        ← gist_append, List.singleton_append]

/-- A blank in front of a text is on its first line, or a line of its own. -/
theorem substance_blank_cons {c : Char} (hc : isBlank c) (source : Text) :
    substance (c :: source) = substance source := by
  by_cases hfeed : c = '\n'
  · subst hfeed
    exact substance_append_feed [] source
  · have hblank : ∀ d ∈ [c], isBlank d := List.forall_mem_singleton.2 hc
    have hline : ∀ line, '\n' ∉ line → substance (c :: line) = substance line := by
      intro line hmem
      have hmore : '\n' ∉ c :: line := by simp [Ne.symm hfeed, hmem]
      rw [substance_of_line hmem, substance_of_line hmore]
      exact gist_congr (congrArg (fun trimmed => [trimmed]) (trim_blanks_append hblank line))
    by_cases hcut : '\n' ∈ source
    · obtain ⟨line, rest, rfl, hmem⟩ := List.eq_append_cons_of_mem hcut
      rw [← List.cons_append, substance_append_feed, substance_append_feed, hline line hmem]
    · exact hline source hcut

/-- A blank behind a text is on its last line, or the end of it. -/
theorem substance_append_blank {c : Char} (hc : isBlank c) (source : Text) :
    substance (source ++ [c]) = substance source := by
  by_cases hfeed : c = '\n'
  · subst hfeed
    rw [substance_append_feed]
    exact List.append_nil _
  · have hblank : ∀ d ∈ [c], isBlank d := List.forall_mem_singleton.2 hc
    induction source using cut_induction '\n' with
    | stretch line hmem =>
        have hmore : '\n' ∉ line ++ [c] := by simp [Ne.symm hfeed, hmem]
        rw [substance_of_line hmem, substance_of_line hmore]
        exact gist_congr (congrArg (fun trimmed => [trimmed]) (trim_append_blanks hblank line))
    | cut line rest _ ih =>
        rw [List.append_assoc, List.cons_append, substance_append_feed, substance_append_feed, ih]

theorem substance_blanks_append {blanks : Text} (h : ∀ c ∈ blanks, isBlank c) (source : Text) :
    substance (blanks ++ source) = substance source := by
  induction blanks with
  | nil => rfl
  | cons c blanks ih =>
      obtain ⟨hc, hblanks⟩ := List.forall_mem_cons.1 h
      rw [List.cons_append, substance_blank_cons hc, ih hblanks]

theorem substance_append_blanks {blanks : Text} (h : ∀ c ∈ blanks, isBlank c) (source : Text) :
    substance (source ++ blanks) = substance source := by
  induction blanks generalizing source with
  | nil => rw [List.append_nil]
  | cons c blanks ih =>
      obtain ⟨hc, hblanks⟩ := List.forall_mem_cons.1 h
      rw [List.append_cons, ih hblanks, substance_append_blank hc]

/-- Blanks where a line begins. -/
theorem substance_of_beginsLine {front blanks : Text} (hfront : BeginsLine front)
    (h : ∀ c ∈ blanks, isBlank c) (back : Text) :
    substance (front ++ (blanks ++ back)) = substance (front ++ back) := by
  obtain rfl | ⟨before, rfl⟩ := hfront
  · exact substance_blanks_append h back
  · rw [← List.append_cons, ← List.append_cons, substance_append_feed, substance_append_feed,
      substance_blanks_append h]

/-- Blanks where a line ends. -/
theorem substance_of_endsLine (front : Text) {blanks back : Text} (hback : EndsLine back)
    (h : ∀ c ∈ blanks, isBlank c) :
    substance (front ++ blanks ++ back) = substance (front ++ back) := by
  obtain rfl | ⟨after, rfl | rfl⟩ := hback
  · rw [List.append_nil, List.append_nil, substance_append_blanks h]
  · rw [substance_append_feed, substance_append_feed, substance_append_blanks h]
  · have hreturn : ∀ text : Text,
        substance (text ++ '\r' :: '\n' :: after) = substance text ++ substance after := by
      intro text
      rw [List.append_cons, substance_append_feed, substance_append_blank rfl]
    rw [hreturn, hreturn, substance_append_blanks h]

/-- **One change of the layout keeps the substance.** -/
theorem substance_of_step {source other : Text} (h : Relays source other) :
    substance other = substance source := by
  cases h with
  | returned front back =>
      rw [List.append_cons, substance_append_feed, substance_append_feed,
        substance_append_blank rfl]
  | indented back hfront hblanks =>
      rw [List.append_assoc, substance_of_beginsLine hfront hblanks.1]
  | trailed front hback hblanks => exact substance_of_endsLine front hback hblanks.1
  | @spaced front blanks back hfront hblanks =>
      have hline : ∀ c ∈ blanks ++ ['\n'], isBlank c :=
        List.forall_mem_append.2 ⟨hblanks.1, List.forall_mem_singleton.2 rfl⟩
      rw [List.append_assoc, List.append_cons, substance_of_beginsLine hfront hline]
  | closed => exact substance_append_blank rfl source

/-- **Relaying keeps the substance.** -/
theorem Relaid.substance {source other : Text} (h : Relaid source other) :
    other.substance = source.substance := by
  induction h with
  | rel _ _ hstep => exact substance_of_step hstep
  | refl _ => rfl
  | symm _ _ _ ih => exact ih.symm
  | trans _ _ _ _ _ ihfirst ihsecond => exact ihsecond.trans ihfirst

/-! ## A text and its substance -/

/-- Another line in front does not get in the way. -/
theorem Relays.behind {source other : Text} (h : Relays source other) (line : Text) :
    Relays (line ++ '\n' :: source) (line ++ '\n' :: other) := by
  have hbegins : ∀ {front : Text}, BeginsLine front → BeginsLine (line ++ '\n' :: front) := by
    rintro front (rfl | ⟨before, rfl⟩)
    · exact .inr ⟨line, rfl⟩
    · exact .inr ⟨line ++ '\n' :: before, by simp⟩
  cases h with
  | returned front back => simpa using Relays.returned (line ++ '\n' :: front) back
  | indented back hfront hblanks => simpa using Relays.indented back (hbegins hfront) hblanks
  | @trailed front _ _ hback hblanks =>
      simpa using Relays.trailed (line ++ '\n' :: front) hback hblanks
  | spaced back hfront hblanks => simpa using Relays.spaced back (hbegins hfront) hblanks
  | closed => simpa using Relays.closed (line ++ '\n' :: source)

theorem Relaid.behind {source other : Text} (h : Relaid source other) (line : Text) :
    Relaid (line ++ '\n' :: source) (line ++ '\n' :: other) := by
  induction h with
  | rel _ _ hstep => exact (hstep.behind line).relaid
  | refl _ => exact .refl _
  | symm _ _ _ ih => exact ih.symm
  | trans _ _ _ _ _ ihfirst ihsecond => exact ihfirst.trans ihsecond

/-- A line may be trimmed where it stands. -/
theorem relaid_trim {line back : Text} (hline : '\n' ∉ line) (hback : EndsLine back) :
    Relaid (line ++ back) (line.trim ++ back) := by
  obtain ⟨front, behind, heq, hfront, hbehind⟩ := exists_trim line
  have hmem : '\n' ∉ front ∧ '\n' ∉ behind := by
    rw [heq] at hline
    simp only [List.mem_append, not_or] at hline
    exact ⟨hline.1.1, hline.2⟩
  have hindented : Relays (line.trim ++ (behind ++ back)) (line ++ back) := by
    have hstep := Relays.indented (line.trim ++ (behind ++ back)) (.inl rfl) ⟨hfront, hmem.1⟩
    have hwhole : line ++ back = [] ++ front ++ (line.trim ++ (behind ++ back)) := by
      conv_lhs => rw [heq]
      simp
    rwa [← hwhole] at hstep
  have htrailed : Relays (line.trim ++ back) (line.trim ++ (behind ++ back)) := by
    have hstep := Relays.trailed line.trim hback ⟨hbehind, hmem.2⟩
    rwa [List.append_assoc] at hstep
  exact (htrailed.relaid.trans hindented.relaid).symm

/-- **Every text can be relaid into its substance**, with a line feed after each line. -/
theorem relaid_onLines (source : Text) : Relaid source (Printed.onLines source.substance) := by
  induction source using cut_induction '\n' with
  | stretch line hmem =>
      have htrimmed : Relaid line (trim line) := by
        have htrim := relaid_trim hmem (.inl rfl)
        rwa [List.append_nil, List.append_nil] at htrim
      rw [substance_of_line hmem]
      by_cases hblank : trim line = []
      · rw [gist_cons_of_blank hblank]
        rwa [hblank] at htrimmed
      · rw [gist_cons_of_not_blank hblank, Printed.onLines_cons]
        exact htrimmed.trans (Relays.closed (trim line)).relaid
  | cut line rest hmem ih =>
      have hends : EndsLine ('\n' :: Printed.onLines (substance rest)) := .inr ⟨_, .inl rfl⟩
      have htrimmed : Relaid (line ++ '\n' :: rest)
          (trim line ++ '\n' :: Printed.onLines (substance rest)) :=
        (ih.behind line).trans (relaid_trim hmem hends)
      rw [substance_append_feed, substance_of_line hmem]
      by_cases hblank : trim line = []
      · have hspaced : Relays (Printed.onLines (substance rest))
            ('\n' :: Printed.onLines (substance rest)) :=
          Relays.spaced _ (.inl rfl) ⟨List.forall_mem_nil _, List.not_mem_nil⟩
        rw [hblank] at htrimmed
        rw [gist_cons_of_blank hblank]
        exact htrimmed.trans hspaced.relaid.symm
      · rw [gist_cons_of_not_blank hblank, gist_nil, List.singleton_append, Printed.onLines_cons]
        exact htrimmed

/-- **Two texts are relaid exactly if they have the same substance.** -/
theorem relaid_iff {source other : Text} :
    Relaid source other ↔ source.substance = other.substance := by
  constructor
  · exact fun h => h.substance.symm
  · intro h
    have hother : Relaid (Printed.onLines source.substance) other := by
      rw [h]
      exact (relaid_onLines other).symm
    exact (relaid_onLines source).trans hother

end Text

namespace Script

open Text (gist substance Relaid)

/-! ## What is printed -/

/-- **Lines print what their gist prints.** -/
theorem transcriptFrom_gist (env : Environment) (lines : List Text) :
    transcriptFrom env lines = transcriptFrom env (gist lines) := by
  induction lines generalizing env with
  | nil => rfl
  | cons line lines ih =>
      by_cases hblank : line.trim = []
      · have hnone : transcriptFrom env lines = transcriptFrom env (line :: lines) :=
          (Alike.of_blank hblank).transcriptFrom_append env lines
        rw [Text.gist_cons_of_blank hblank, ← hnone, ih]
      · have htrim : transcriptFrom env (line :: lines) =
            transcriptFrom env (Text.trim line :: lines) :=
          (Alike.of_trim (Text.trim_trim line).symm).transcriptFrom_append env lines
        rw [Text.gist_cons_of_not_blank hblank, htrim, transcriptFrom_cons, transcriptFrom_cons, ih]

theorem transcript_eq (source : Text) :
    transcript source = transcriptFrom Environment.empty source.substance :=
  transcriptFrom_gist _ _

/-- Texts of the same substance have the same output, in any mode. -/
theorem output_congr {source other : Text} (h : source.substance = other.substance) (mode : Mode) :
    output mode source = output mode other := by
  have hfull : output .full source = output .full other := by
    rw [output, output, transcript_eq, transcript_eq, h]
  cases mode with
  | full => exact hfull
  | terse => rw [output_terse_eq, output_terse_eq, hfull]

/-- **The layout of a script does not matter.**  However a text is relaid, its output is the same in
every mode, failures and their evidence included.  The changes of the layout reach just the texts
whose lines say the same, blanks at their ends and blank lines aside. -/
theorem layout_does_not_matter (source other : Text) :
    (Relaid source other ↔ source.substance = other.substance) ∧
      (Relaid source other → ∀ mode, output mode other = output mode source) := by
  refine ⟨Text.relaid_iff, fun h mode => ?_⟩
  exact output_congr h.substance mode

/-- Returns, blanks of all kinds at the ends of lines, blank lines, and a line feed at the end; the
command, the name and the character that are refused stay what they were. -/
theorem layout_does_not_matter_failures :
    Relaid "a = 4\n1a = 2\n/quit\n?\na".toList
        "\n a = 4\r\n\u3000\r\n\t1a = 2\u0085\n/quit\r\r\n ?\na \n".toList ∧
      output .full "\n a = 4\r\n\u3000\r\n\t1a = 2\u0085\n/quit\r\r\n ?\na \n".toList =
        [.error (.parse (.invalidIdentifier ['1', 'a'])),
          .error (.parse (.unknownCommand "/quit".toList)), .error (.parse (.strayCharacter '?')),
          .ok ['4']] ∧
      output .terse "\n a = 4\r\n\u3000\r\n\t1a = 2\u0085\n/quit\r\r\n ?\na \n".toList =
        [.ok ['4']] := by
  obtain ⟨hsame, houtput⟩ := layout_does_not_matter "a = 4\n1a = 2\n/quit\n?\na".toList
    "\n a = 4\r\n\u3000\r\n\t1a = 2\u0085\n/quit\r\r\n ?\na \n".toList
  have hrelaid := hsame.2 (by decide)
  refine ⟨hrelaid, ?_, ?_⟩
  · rw [houtput hrelaid]
    rfl
  · rw [houtput hrelaid]
    rfl

end Script

end Calculator
