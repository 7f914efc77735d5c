import Calculator.Proofs.Blanks

/-!
# As what a line is read

A line is read without the blanks at its ends, in one of four ways: it is blank,
it starts like a command, it has an equals sign and so says an assignment, or it
asks for a value.  The first of them that fits is the one, so for each kind of
statement there is a condition on the line under which it is read as that.

An assignment is read as one only if what stands on its left is a name and what
stands on its right is a literal or a name.  No name is also a literal, so with
names on both sides it is a copy.

* `parse_cases`, `parse_ok_cases` — the four ways in which a line is read, and what
  a line must be to be read as a statement;
* `parse_eq_blank_iff`, `parse_eq_command_iff` — blank lines and commands;
* `parseAssignment_eq_ok_iff`, `isIdentifier_of_parse` — what an assignment needs;
* `parse_query` — a name alone.
-/

namespace Calculator

namespace Text

theorem isIdentifier_iff {text : Text} :
    text.isIdentifier ↔ text ≠ [] ∧ ∀ c ∈ text, c.isAlpha := by
  simp [isIdentifier, List.isEmpty_eq_false_iff]

/-- A name has a first letter. -/
theorem exists_cons_of_isIdentifier {name : Text} (h : name.isIdentifier) :
    ∃ c rest, name = c :: rest ∧ c.isAlpha := by
  obtain ⟨hne, hletters⟩ := isIdentifier_iff.1 h
  obtain ⟨c, rest, rfl⟩ := List.exists_cons_of_ne_nil hne
  exact ⟨c, rest, rfl, hletters c List.mem_cons_self⟩

/-- A name has a last letter. -/
theorem exists_concat_of_isIdentifier {name : Text} (h : name.isIdentifier) :
    ∃ front c, name = front ++ [c] ∧ c.isAlpha := by
  obtain ⟨hne, hletters⟩ := isIdentifier_iff.1 h
  obtain ⟨front, c, hconcat⟩ := (List.eq_nil_or_concat name).resolve_left hne
  rw [List.concat_eq_append] at hconcat
  exact ⟨front, c, hconcat, hletters c (by simp [hconcat])⟩

/-- A character that is no letter stands in no name. -/
theorem notMem_of_isIdentifier {name : Text} (h : name.isIdentifier) {c : Char}
    (hc : c.isAlpha = false) : c ∉ name := by
  intro hmem
  have hletter := (isIdentifier_iff.1 h).2 c hmem
  simp [hc] at hletter

theorem blankless_of_isIdentifier {name : Text} (h : name.isIdentifier) : name.Blankless :=
  fun c hc => not_isBlank_of_isAlpha ((isIdentifier_iff.1 h).2 c hc)

/-- A name has no blanks at its ends. -/
theorem trim_of_isIdentifier {name : Text} (h : name.isIdentifier) : trim name = name :=
  trim_of_blankless (blankless_of_isIdentifier h)

end Text

namespace Decimal

/-- What starts with a letter is no literal. -/
theorem literal?_of_isAlpha {c : Char} (h : c.isAlpha) (rest : Text) :
    literal? (c :: rest) = none := by
  unfold literal?
  split
  · next heq => cases heq; exact absurd h (by decide)
  · next heq => cases heq; exact absurd h (by decide)
  · simp [magnitude?, Text.isNumeral, Text.not_isDigit_of_isAlpha h]

/-- No name is a literal. -/
theorem literal?_of_isIdentifier {name : Text} (h : name.isIdentifier) : literal? name = none := by
  obtain ⟨c, rest, rfl, hletter⟩ := Text.exists_cons_of_isIdentifier h
  exact literal?_of_isAlpha hletter rest

end Decimal

/-- A name is the source of a copy. -/
theorem Source.ofText?_of_isIdentifier {name : Text} (h : name.isIdentifier) :
    ofText? name = some (.copy name) := by
  simp [ofText?, Decimal.literal?_of_isIdentifier h, h]

namespace Statement

/-- **What two sides need** to say an assignment: a name on the left and a source on the right. -/
theorem assign_eq_ok_iff {left right : Text} {statement : Statement} :
    assign left right = .ok statement ↔
      ∃ source : Source, left.isIdentifier ∧ Source.ofText? right = some source ∧
        statement = .assignment left source := by
  constructor
  · intro h
    rw [assign] at h
    split at h
    · cases h
    · split at h
      · cases h
      · next hname =>
        cases hsource : Source.ofText? right with
        | none => simp [hsource] at h
        | some source =>
            rw [hsource] at h
            cases h
            exact ⟨source, by simpa using hname, rfl, rfl⟩
  · intro h
    obtain ⟨source, hname, hsource, rfl⟩ := h
    have hleft : left.isEmpty = false :=
      List.isEmpty_eq_false_iff.2 (Text.isIdentifier_iff.1 hname).1
    have hright : right.isEmpty = false := by
      rw [List.isEmpty_eq_false_iff]
      rintro rfl
      cases hsource
    simp [assign, hleft, hright, hname, hsource]

/-- **What an assignment needs**: one equals sign, a name on its left and a source on its right. -/
theorem parseAssignment_eq_ok_iff {line : Text} {statement : Statement} :
    parseAssignment line = .ok statement ↔
      ∃ (left right : Text) (source : Source), line.splitOn '=' = [left, right] ∧
        left.trim.isIdentifier ∧ Source.ofText? right.trim = some source ∧
        statement = .assignment left.trim source := by
  rw [parseAssignment]
  constructor
  · intro h
    split at h
    · next left right hsplit =>
      obtain ⟨source, hname, hsource, rfl⟩ := assign_eq_ok_iff.1 h
      exact ⟨left, right, source, hsplit, hname, hsource, rfl⟩
    · cases h
  · intro h
    obtain ⟨left, right, source, hsplit, hname, hsource, rfl⟩ := h
    rw [hsplit]
    exact assign_eq_ok_iff.2 ⟨source, hname, hsource, rfl⟩

/-- **The four ways in which a line is read.** -/
theorem parse_cases (line : Text) :
    (line.trim = [] ∧ parse line = .ok .blank) ∨
      (line.trim.head? = some '/' ∧ parse line = (Command.parse line.trim).map command) ∨
      (line.trim.head? ≠ some '/' ∧ '=' ∈ line.trim ∧
        parse line = parseAssignment line.trim) ∨
      line.trim ≠ [] ∧ line.trim.head? ≠ some '/' ∧ '=' ∉ line.trim ∧
        parse line = if line.trim.isIdentifier then .ok (.query line.trim)
          else .ok (.expression line.trim) := by
  rw [parse, parseTrimmed]
  by_cases hblank : line.trim = []
  · simp [hblank]
  by_cases hcommand : line.trim.head? = some '/'
  · simp [hblank, hcommand]
  by_cases hequals : '=' ∈ line.trim
  · simp [hblank, hcommand, hequals]
  · simp [hblank, hcommand, hequals]

/-- **What a line must be to be read as a statement**, kind by kind. -/
theorem parse_ok_cases {line : Text} {statement : Statement} (h : parse line = .ok statement) :
    (statement = .blank ∧ line.trim = []) ∨
      (∃ c : Command, statement = .command c ∧ line.trim = c.spelling) ∨
      (∃ (left right : Text) (source : Source), line.trim.splitOn '=' = [left, right] ∧
        left.trim.isIdentifier ∧ Source.ofText? right.trim = some source ∧
        statement = .assignment left.trim source) ∨
      (statement = .query line.trim ∧ line.trim.isIdentifier) ∨
      statement = .expression line.trim := by
  rcases parse_cases line with ⟨hblank, hparse⟩ | ⟨-, hparse⟩ | ⟨-, -, hparse⟩ | ⟨-, -, -, hparse⟩
  · rw [hparse] at h
    cases h
    exact .inl ⟨rfl, hblank⟩
  · rw [hparse] at h
    cases hcommand : Command.parse line.trim with
    | error cause => rw [hcommand] at h; cases h
    | ok c =>
        rw [hcommand] at h
        cases h
        exact .inr (.inl ⟨c, rfl, Command.parse_ok_iff.1 hcommand⟩)
  · exact .inr (.inr (.inl (parseAssignment_eq_ok_iff.1 (hparse ▸ h))))
  · rw [hparse] at h
    split at h
    · next hname =>
      cases h
      exact .inr (.inr (.inr (.inl ⟨rfl, hname⟩)))
    · cases h
      exact .inr (.inr (.inr (.inr rfl)))

/-- A line is blank if nothing is left of it without the blanks at its ends. -/
theorem parse_eq_blank_iff {line : Text} : parse line = .ok .blank ↔ line.trim = [] := by
  constructor
  · intro h
    rcases parse_ok_cases h with
      ⟨-, hblank⟩ | ⟨_, heq, -⟩ | ⟨_, _, _, -, -, -, heq⟩ | ⟨heq, -⟩ | heq
    · exact hblank
    all_goals cases heq
  · intro h
    rw [parse, h]
    rfl

/-- A line is a command if it is spelled like it, blanks at its ends aside. -/
theorem parse_eq_command_iff {line : Text} {c : Command} :
    parse line = .ok (.command c) ↔ line.trim = c.spelling := by
  constructor
  · intro h
    rcases parse_ok_cases h with
      ⟨heq, -⟩ | ⟨d, heq, hspelling⟩ | ⟨_, _, _, -, -, -, heq⟩ | ⟨heq, -⟩ | heq
    case inr.inl =>
      cases heq
      exact hspelling
    all_goals cases heq
  · intro h
    rw [parse, h]
    cases c <;> rfl

/-- **What is assigned to is a name.** -/
theorem isIdentifier_of_parse {line name : Text} {source : Source}
    (h : parse line = .ok (.assignment name source)) : name.isIdentifier := by
  rcases parse_ok_cases h with
    ⟨heq, -⟩ | ⟨_, heq, -⟩ | ⟨_, _, _, -, hname, -, heq⟩ | ⟨heq, -⟩ | heq
  case inr.inr.inl =>
    cases heq
    exact hname
  all_goals cases heq

/-- A name alone is a query. -/
theorem parse_query {name : Text} (h : name.isIdentifier) : parse name = .ok (.query name) := by
  have htrim : name.trim = name := Text.trim_of_isIdentifier h
  rcases parse_cases name with ⟨hnil, -⟩ | ⟨hhead, -⟩ | ⟨-, hequals, -⟩ | ⟨-, -, -, hparse⟩
  · exact absurd (htrim ▸ hnil) (Text.isIdentifier_iff.1 h).1
  · have hslash : '/' ∈ name := htrim ▸ List.mem_of_mem_head? hhead
    exact absurd hslash (Text.notMem_of_isIdentifier h (by decide))
  · exact absurd (htrim ▸ hequals) (Text.notMem_of_isIdentifier h (by decide))
  · rwa [htrim, if_pos h] at hparse

end Statement

end Calculator
