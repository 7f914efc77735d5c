import Calculator.Proofs.Blanks
import Calculator.Proofs.MergedSigns

/-!
# Asking for a value

A line that is no command and no assignment, and that is not blank, **asks** for
a value.  If it is a name it is answered from the environment at once, and any
other such line is computed as an expression.  A name is also an expression, of
one token, with the value that it is bound to; so it makes no difference which
way a line is answered.  Hence all lines that ask alike, up to blanks, are
answered alike, even if one of them is a name and in the other a blank stands
in the middle of it.

* `evaluate_identifier` — a name has its own value as an expression;
* `asks_iff` — whether a line asks shows once its blanks are stripped;
* `execute_of_asks` — a line that asks is answered with its value as an expression.
-/

namespace Calculator

/-- A line that asks for a value: it is not blank, no command and no assignment. -/
structure Asks (line : Text) : Prop where
  /-- There is something besides blanks. -/
  not_blank : line.trim ≠ []
  /-- It does not start like a command. -/
  no_command : line.trim.head? ≠ some '/'
  /-- It has no equals sign. -/
  no_assignment : '=' ∉ line.trim

/-- Whether a line asks shows in what stripping leaves of it. -/
theorem asks_iff {line : Text} :
    Asks line ↔ line.stripBlanks ≠ [] ∧ line.stripBlanks.head? ≠ some '/' ∧
      '=' ∉ line.stripBlanks := by
  have hequals : '=' ∈ line.trim ↔ '=' ∈ line.stripBlanks := Text.mem_trim_iff (by decide)
  constructor
  · intro h
    exact ⟨fun hnil => h.not_blank (Text.trim_eq_nil_iff.2 hnil),
      Text.head?_trim line ▸ h.no_command, fun hmem => h.no_assignment (hequals.2 hmem)⟩
  · intro h
    obtain ⟨hblank, hcommand, hassignment⟩ := h
    exact ⟨fun hnil => hblank (Text.trim_eq_nil_iff.1 hnil), (Text.head?_trim line).symm ▸ hcommand,
      fun hmem => hassignment (hequals.1 hmem)⟩

/-- A line that asks is a query if it is a name, and an expression otherwise. -/
theorem Asks.parse {line : Text} (h : Asks line) :
    Statement.parse line =
      if line.trim.isIdentifier then .ok (.query line.trim) else .ok (.expression line.trim) := by
  have hblank : line.trim.isEmpty = false := List.isEmpty_eq_false_iff.2 h.not_blank
  simp [Statement.parse, Statement.parseTrimmed, hblank, h.no_command, h.no_assignment]

namespace Session

/-- **A name has its own value as an expression.** -/
theorem evaluate_identifier {name : Text} (h : name.isIdentifier) (env : Environment) :
    evaluate env name = (env.query name).mapError .eval := by
  have hcanonical : Token.Canonical [.identifier name] :=
    Token.canonical_singleton fun x hx => Token.identifier.inj hx ▸ h
  have hspell : Token.spell [.identifier name] = name := by simp [Token.spell, Token.render]
  have hread : tokenize name = .ok [.identifier name] := by
    have hall := hcanonical.tokenize_spell
    rwa [hspell] at hall
  have hderives : Derives .sum [.identifier name] (.identifier name) :=
    (Derives.identifier name).relax .sum
  rw [ReversePolish.evaluate_eq_compute hread, ReversePolish.compute_of_derives hderives]
  rfl

/-- **A line that asks is answered with its value as an expression.** -/
theorem execute_of_asks {line : Text} (h : Asks line) (env : Environment) :
    execute env line = ((evaluate env line).map .value, env) := by
  have htrim : evaluate env line.trim = evaluate env line :=
    evaluate_congr (Text.stripBlanks_trim line) env
  rw [execute, h.parse]
  by_cases hname : line.trim.isIdentifier
  · rw [if_pos hname, ← htrim, evaluate_identifier hname]
    rfl
  · rw [if_neg hname, ← htrim]
    rfl

/-- **Queries and expressions agree.**  A line that asks is read as a query or as an expression;
either way it has the value that it has as an expression, and fails for the same cause.  So any
line that differs from it in blanks only, wherever they stand, does the same. -/
theorem query_and_expression_agree {line : Text} (h : Asks line) (env : Environment) :
    (Statement.parse line = .ok (.query line.trim) ∨
        Statement.parse line = .ok (.expression line.trim)) ∧
      (∀ v, (execute env line).1 = .ok (.value v) ↔ evaluate env line = .ok v) ∧
      (∀ cause, (execute env line).1 = .error cause ↔ evaluate env line = .error cause) ∧
      ∀ other : Text, other.stripBlanks = line.stripBlanks →
        execute env other = execute env line := by
  have hanswer := execute_of_asks h env
  refine ⟨?_, ?_, ?_, ?_⟩
  · rw [h.parse]
    by_cases hname : line.trim.isIdentifier
    · exact Or.inl (if_pos hname)
    · exact Or.inr (if_neg hname)
  · intro v
    rw [hanswer]
    cases evaluate env line <;> simp [Except.map]
  · intro cause
    rw [hanswer]
    cases evaluate env line <;> simp [Except.map]
  · intro other hother
    have hasks : Asks other := by
      rw [asks_iff, hother]
      exact asks_iff.1 h
    rw [hanswer, execute_of_asks hasks, evaluate_congr hother]

/-- A name with a blank in the middle is an expression, and is answered like the name. -/
theorem query_and_expression_agree_split_name :
    Asks " a b".toList ∧
      Statement.parse " a b".toList = .ok (.expression "a b".toList) ∧
      Statement.parse "ab".toList = .ok (.query "ab".toList) ∧
      execute (Environment.empty.assign "ab".toList 7) "ab".toList =
        execute (Environment.empty.assign "ab".toList 7) " a b".toList ∧
      evaluate (Environment.empty.assign "ab".toList 7) " a b".toList = .ok 7 := by
  have hasks : Asks " a b".toList := ⟨by decide, by decide, by decide⟩
  have hagree := query_and_expression_agree hasks (Environment.empty.assign "ab".toList 7)
  exact ⟨hasks, by rfl, by rfl, hagree.2.2.2 _ (by decide), (hagree.2.1 7).1 (by rfl)⟩

end Session

end Calculator
