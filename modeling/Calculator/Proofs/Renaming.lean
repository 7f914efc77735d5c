import Calculator.Proofs.LineEffects
import Calculator.Proofs.Substitution
import Calculator.Text.Lines

/-!
# Other names for all names

A renaming gives each name another one, and no two names the same.  Nothing but
the names of a text is changed by it: any character that is no letter stands
where it stood, so the text is cut at the same places, and what was no name, no
literal or no assignment before is none afterwards.  The calculator compares
names and does nothing else with them.  So a renamed line is read as what the
line was read as, renamed, and has the same result, except that an error tells
the new name in the place of the old one.

What one line keeps up is that a new name has the value of the old one; so does
any row of lines.

* `text_append_cons`, `mem_text_iff`, `isIdentifier_text` — what becomes of a text;
* `parse_line` — what a renamed line is read as;
* `Renamed.evaluate_text`, `Renamed.perform_statement` — and what it does;
* `Renamed.execute_line`, `Renamed.run_lines` — one line, and a row of lines;
* `names_are_opaque` — the same for a session from its start.
-/

namespace Calculator

open Token

/-- Another name for each name, and no two the same. -/
structure Renaming where
  /-- The other name. -/
  rename : Text → Text
  /-- It is a name. -/
  maps : ∀ {x : Text}, x.isIdentifier → (rename x).isIdentifier
  /-- It belongs to one name only. -/
  injective : ∀ {x y : Text}, x.isIdentifier → y.isIdentifier → rename x = rename y → x = y

namespace Renaming

/-- A text with its names renamed. -/
def text (r : Renaming) (source : Text) : Text :=
  source.replaceNames r.rename

/-- A line with its names renamed; a line that starts like a command has none. -/
def line (r : Renaming) (source : Text) : Text :=
  if source.head? = some '/' then source else r.text source

def source (r : Renaming) : Source → Source
  | .literal n => .literal n
  | .copy x => .copy (r.rename x)

def statement (r : Renaming) : Statement → Statement
  | .assignment x source => .assignment (r.rename x) (r.source source)
  | .query x => .query (r.rename x)
  | .expression source => .expression (r.text source)
  | statement => statement

/-- What was refused as a name is told as it stands in the renamed line. -/
def parseError (r : Renaming) : ParseError → ParseError
  | .invalidIdentifier left => .invalidIdentifier (r.text left)
  | cause => cause

def error (r : Renaming) : Error → Error
  | .parse cause => .parse (r.parseError cause)
  | .eval cause => .eval (cause.rename r.rename)

variable (r : Renaming)

/-! ## What becomes of a text -/

theorem text_name {x : Text} (hx : x.isIdentifier) : r.text x = r.rename x :=
  Text.replaceNames_name hx r.rename

theorem text_cons {c : Char} (hc : c.isAlpha = false) (rest : Text) :
    r.text (c :: rest) = c :: r.text rest :=
  Text.replaceNames_cons hc r.rename rest

/-- The two sides of a character that is no letter are renamed apart. -/
theorem text_append_cons {c : Char} (hc : c.isAlpha = false) (front back : Text) :
    r.text (front ++ c :: back) = r.text front ++ c :: r.text back := by
  induction front using Text.name_induction with
  | nil => exact r.text_cons hc back
  | name x rest hx hrest ih =>
      have hbehind : ∀ b ∈ (rest ++ c :: back).head?, b.isAlpha = false := by
        cases rest with
        | nil => simpa using hc
        | cons d rest => exact hrest
      rw [text, List.append_assoc, Text.replaceNames_name_append hx hbehind, text,
        Text.replaceNames_name_append hx hrest, List.append_assoc]
      exact congrArg _ ih
  | other d rest hd ih =>
      rw [List.cons_append, r.text_cons hd, r.text_cons hd, ih, List.cons_append]

/-- Characters that are no letters stay, and none come in. -/
theorem mem_text_iff {c : Char} (hc : c.isAlpha = false) {source : Text} :
    c ∈ r.text source ↔ c ∈ source := by
  constructor
  · intro h
    obtain hsource | ⟨x, hx, hname⟩ := Text.mem_replaceNames h
    · exact hsource
    · exact absurd hname (Text.notMem_of_isIdentifier (r.maps hx) hc)
  · intro h
    obtain ⟨front, back, rfl⟩ := List.append_of_mem h
    rw [r.text_append_cons hc]
    exact List.mem_append_right _ List.mem_cons_self

/-- A text without letters stays as it is, and one with letters still has some. -/
theorem text_letters (source : Text) :
    ((∀ c ∈ source, c.isAlpha = false) ∧ r.text source = source) ∨
      (∃ c ∈ source, c.isAlpha) ∧ ∃ c ∈ r.text source, c.isAlpha := by
  induction source using Text.name_induction with
  | nil => exact Or.inl ⟨by simp, rfl⟩
  | name x rest hx hrest ih =>
      obtain ⟨c, front, hcons, hc⟩ := Text.exists_cons_of_isIdentifier hx
      obtain ⟨d, other, hother, hd⟩ := Text.exists_cons_of_isIdentifier (r.maps hx)
      have htext : r.text (x ++ rest) = r.rename x ++ r.text rest :=
        Text.replaceNames_name_append hx hrest r.rename
      exact Or.inr ⟨⟨c, by simp [hcons], hc⟩, d, by simp [htext, hother], hd⟩
  | other c rest hc ih =>
      rw [r.text_cons hc]
      obtain ⟨hnone, hsame⟩ | ⟨⟨a, ha, hletter⟩, b, hb, hletter'⟩ := ih
      · exact Or.inl ⟨List.forall_mem_cons.2 ⟨hc, hnone⟩, by rw [hsame]⟩
      · exact Or.inr ⟨⟨a, List.mem_cons_of_mem c ha, hletter⟩,
          b, List.mem_cons_of_mem c hb, hletter'⟩

theorem text_eq_nil_iff {source : Text} : r.text source = [] ↔ source = [] := by
  obtain ⟨-, hsame⟩ | ⟨⟨a, ha, -⟩, b, hb, -⟩ := r.text_letters source
  · rw [hsame]
  · exact iff_of_false (List.ne_nil_of_mem hb) (List.ne_nil_of_mem ha)

theorem head?_text_iff {c : Char} (hc : c.isAlpha = false) {source : Text} :
    (r.text source).head? = some c ↔ source.head? = some c := by
  have hname : ∀ {x : Text} (rest : Text), x.isIdentifier → (x ++ rest).head? ≠ some c := by
    intro x rest hx hhead
    obtain ⟨d, front, rfl, hd⟩ := Text.exists_cons_of_isIdentifier hx
    rw [List.cons_append, List.head?_cons, Option.some_inj] at hhead
    simp [← hhead, hd] at hc
  cases source with
  | nil => rfl
  | cons d rest =>
      by_cases hd : d.isAlpha
      · obtain ⟨x, after, hsplit, hne, hall, hafter⟩ := Text.exists_stretch hd rest
        have hx : Text.isIdentifier x := Text.isIdentifier_iff.2 ⟨hne, List.all_eq_true.1 hall⟩
        rw [hsplit, text, Text.replaceNames_name_append hx hafter]
        exact iff_of_false (hname _ (r.maps hx)) (hname after hx)
      · rw [r.text_cons (by simpa using hd), List.head?_cons, List.head?_cons]

theorem isIdentifier_text (source : Text) :
    (r.text source).isIdentifier = source.isIdentifier := by
  by_cases h : source.isIdentifier
  · rw [r.text_name h, r.maps h, h]
  · have hnone : ¬(r.text source).isIdentifier := by
      intro htext
      obtain ⟨hne, hletters⟩ := Text.isIdentifier_iff.1 htext
      refine h (Text.isIdentifier_iff.2 ⟨mt r.text_eq_nil_iff.2 hne, fun c hc => ?_⟩)
      by_contra hletter
      rw [Bool.not_eq_true] at hletter
      have hmem := hletters c ((r.mem_text_iff hletter).2 hc)
      rw [hletter] at hmem
      cases hmem
    rw [Bool.not_eq_true] at h hnone
    rw [h, hnone]

theorem blankless_text {source : Text} (h : source.Blankless) : (r.text source).Blankless :=
  Text.blankless_replaceNames (fun _ hx => Text.sealed_name (r.maps hx)) h

/-- A renamed text is cut at the same marks. -/
theorem splitOn_text {c : Char} (hc : c.isAlpha = false) (source : Text) :
    (r.text source).splitOn c = (source.splitOn c).map r.text :=
  splitOn_comm (r.text_append_cons hc) (fun _ => mt (r.mem_text_iff hc).1) source

end Renaming

/-! ## What a renamed line is read as -/

/-- No literal has a letter in it. -/
theorem Decimal.literal?_of_letter {source : Text} (h : ∃ c ∈ source, c.isAlpha) :
    literal? source = none := by
  obtain ⟨c, hc, hletter⟩ := h
  have hnone : ∀ digits : Text, c ∈ digits → magnitude? digits = none := by
    intro digits hmem
    refine if_neg fun hnumeral => ?_
    have hdigit := Text.isDigit_of_mem_numeral hnumeral hmem
    simp [Text.not_isAlpha_of_isDigit hdigit] at hletter
  unfold literal?
  split
  · next digits =>
    obtain rfl | hmem := List.mem_cons.1 hc
    · exact absurd hletter (by decide)
    · rw [hnone digits hmem]
      rfl
  · next digits =>
    obtain rfl | hmem := List.mem_cons.1 hc
    · exact absurd hletter (by decide)
    · rw [hnone digits hmem]
      rfl
  · rw [hnone _ hc]
    rfl

namespace Renaming

variable (r : Renaming)

theorem literal?_text (source : Text) :
    Decimal.literal? (r.text source) = Decimal.literal? source := by
  obtain ⟨-, hsame⟩ | ⟨hletter, hletter'⟩ := r.text_letters source
  · rw [hsame]
  · rw [Decimal.literal?_of_letter hletter, Decimal.literal?_of_letter hletter']

theorem ofText?_text (right : Text) :
    Source.ofText? (r.text right) = (Source.ofText? right).map r.source := by
  rw [Source.ofText?, literal?_text, isIdentifier_text, Source.ofText?]
  cases Decimal.literal? right with
  | some n => rfl
  | none =>
      by_cases hname : right.isIdentifier
      · simp [hname, r.text_name hname, source]
      · simp [hname]

/-- The two sides of an assignment are read as before, renamed. -/
theorem assign_text (left right : Text) :
    Statement.assign (r.text left) (r.text right) =
      ((Statement.assign left right).map r.statement).mapError r.parseError := by
  have hempty : ∀ side, (r.text side).isEmpty = side.isEmpty := fun side => by
    rw [Bool.eq_iff_iff, List.isEmpty_iff, List.isEmpty_iff, text_eq_nil_iff]
  rw [Statement.assign, hempty, hempty, isIdentifier_text, ofText?_text, Statement.assign]
  by_cases hsides : left.isEmpty || right.isEmpty
  · rw [if_pos hsides, if_pos hsides]
    rfl
  · rw [if_neg hsides, if_neg hsides]
    by_cases hname : left.isIdentifier
    · rw [hname, r.text_name hname]
      cases Source.ofText? right <;> rfl
    · rw [Bool.not_eq_true] at hname
      rw [hname]
      rfl

theorem parseAssignment_text {source : Text} (h : source.Blankless) :
    Statement.parseAssignment (r.text source) =
      ((Statement.parseAssignment source).map r.statement).mapError r.parseError := by
  rw [Statement.parseAssignment, r.splitOn_text (by decide), Statement.parseAssignment]
  rcases hsplit : source.splitOn '=' with _ | ⟨left, _ | ⟨right, _ | ⟨third, more⟩⟩⟩
  · rfl
  · rfl
  · -- One equals sign: there are two sides, and they have no blanks to trim.
    have hsource : ['='].intercalate [left, right] = source := by
      rw [← hsplit, List.intercalate_splitOn]
    have hleft : Text.Blankless left := fun c hc => h c (by simp [← hsource, hc])
    have hright : Text.Blankless right := fun c hc => h c (by simp [← hsource, hc])
    change Statement.assign (Text.trim (r.text left)) (Text.trim (r.text right)) =
      ((Statement.assign (Text.trim left) (Text.trim right)).map r.statement).mapError
        r.parseError
    rw [Text.trim_of_blankless hleft, Text.trim_of_blankless hright,
      Text.trim_of_blankless (r.blankless_text hleft),
      Text.trim_of_blankless (r.blankless_text hright), assign_text]
  · rfl

/-- **A renamed line is read as what the line is read as**, renamed. -/
theorem parse_line {source : Text} (h : source.Blankless) :
    Statement.parse (r.line source) =
      ((Statement.parse source).map r.statement).mapError r.parseError := by
  rw [Statement.parse, Statement.parse, Text.trim_of_blankless h]
  by_cases hslash : source.head? = some '/'
  · have hne : source ≠ [] := fun hnil => by simp [hnil] at hslash
    rw [line, if_pos hslash, Text.trim_of_blankless h]
    simp only [Statement.parseTrimmed, List.isEmpty_iff, hne, if_false, hslash, if_true,
      Command.parse]
    split
    · rfl
    · split <;> rfl
  · rw [line, if_neg hslash, Text.trim_of_blankless (r.blankless_text h)]
    simp only [Statement.parseTrimmed, List.isEmpty_iff, r.text_eq_nil_iff,
      r.head?_text_iff (by decide : '/'.isAlpha = false), hslash, if_false,
      List.contains_iff_mem, r.mem_text_iff (by decide : '='.isAlpha = false), isIdentifier_text]
    by_cases hnil : source = []
    · rw [if_pos hnil, if_pos hnil]
      rfl
    · rw [if_neg hnil, if_neg hnil]
      by_cases hequals : '=' ∈ source
      · rw [if_pos hequals, if_pos hequals, r.parseAssignment_text h]
      · rw [if_neg hequals, if_neg hequals]
        by_cases hname : source.isIdentifier
        · rw [if_pos hname, if_pos hname, r.text_name hname]
          rfl
        · rw [if_neg hname, if_neg hname]
          rfl

end Renaming

/-- A statement as it is read from a line without blanks: what it calls names are names, and its
expression has no blanks either. -/
def Statement.Plain : Statement → Prop
  | .blank | .command _ => True
  | .assignment x (.literal _) => x.isIdentifier
  | .assignment x (.copy y) => x.isIdentifier ∧ y.isIdentifier
  | .query x => x.isIdentifier
  | .expression source => source.Blankless

/-- What is copied is a name. -/
theorem Source.isIdentifier_of_ofText? {right name : Text}
    (h : ofText? right = some (.copy name)) : name.isIdentifier := by
  rw [ofText?] at h
  split at h
  · cases h
  · split at h
    · next hname =>
      cases h
      exact hname
    · cases h

theorem Statement.plain_of_parse {line : Text} (hline : line.Blankless) {statement : Statement}
    (h : parse line = .ok statement) : statement.Plain := by
  obtain ⟨rfl, -⟩ | ⟨c, rfl, -⟩ | ⟨left, right, source, -, hname, hsource, rfl⟩ |
    ⟨rfl, hname⟩ | rfl := parse_ok_cases h
  · trivial
  · trivial
  · cases source with
    | literal n => exact hname
    | copy other => exact ⟨hname, Source.isIdentifier_of_ofText? hsource⟩
  · exact hname
  · rw [Text.trim_of_blankless hline]
    exact hline

/-! ## What a renamed line does -/

namespace Renaming

open Session ReversePolish

variable (r : Renaming)

/-- Each name has, under its new name, the value that it had. -/
def Renamed (env env' : Environment) : Prop :=
  ∀ x : Text, x.isIdentifier → env'.lookup (r.rename x) = env.lookup x

variable {r} {env env' : Environment}

theorem Renamed.assign (h : r.Renamed env env') {x : Text} (hx : x.isIdentifier) (v : Int) :
    r.Renamed (env.assign x v) (env'.assign (r.rename x) v) := by
  intro y hy
  rw [Environment.lookup_assign, Environment.lookup_assign, h y hy]
  by_cases hxy : y = x
  · rw [hxy, if_pos rfl, if_pos rfl]
  · rw [if_neg hxy, if_neg fun heq => hxy (r.injective hy hx heq)]

theorem Renamed.query (h : r.Renamed env env') {x : Text} (hx : x.isIdentifier) :
    env'.query (r.rename x) = (env.query x).mapError (EvalError.rename r.rename) := by
  rw [Environment.query, h x hx, Environment.query]
  cases env.lookup x <;> rfl

/-- A renamed expression has the value of the expression. -/
theorem Renamed.evaluate_text (h : r.Renamed env env') {source : Text}
    (hsource : source.Blankless) :
    evaluate env' (r.text source) = (evaluate env source).mapError r.error := by
  have hstrip : source.stripBlanks = source := Text.stripBlanks_eq_self_iff.2 hsource
  have hspell : (fun x => spell [identifier (r.rename x)]) = r.rename := by
    funext x
    simp [spell, render]
  have hexec : ∀ x : Text, x.isIdentifier → ∀ stack, exec env' stack [identifier (r.rename x)] =
      (execToken env stack (identifier x)).mapError (EvalError.rename r.rename) := by
    intro x hx stack
    rw [exec_singleton, execToken, execToken, h.query hx]
    cases env.query x <;> rfl
  have hall : evaluate env' (source.stripBlanks.replaceNames fun x =>
      spell [identifier (r.rename x)]) = (evaluate env source).mapError r.error :=
    evaluate_replaceNames (fun x hx => StandsAlone.name (r.maps hx))
      (fun x _ => Yard.passes_identifier (r.rename x)) hexec (fun _ => rfl) rfl
      (fun _ => rfl) source
  rwa [hspell, hstrip] at hall

theorem Renamed.resolve? (h : r.Renamed env env') {x : Text} {source : Source}
    (hplain : (Statement.assignment x source).Plain) :
    Session.resolve? env' (r.source source) = Session.resolve? env source := by
  cases source with
  | literal n => rfl
  | copy y => exact h y hplain.2

theorem isIdentifier_of_plain {x : Text} {source : Source}
    (hplain : (Statement.assignment x source).Plain) : x.isIdentifier := by
  cases source with
  | literal n => exact hplain
  | copy y => exact hplain.1

/-- **A renamed statement does what the statement does**, under other names. -/
theorem Renamed.perform_statement (h : r.Renamed env env') {statement : Statement}
    (hplain : statement.Plain) :
    (perform env' (r.statement statement)).1 = (perform env statement).1.mapError r.error ∧
      r.Renamed (perform env statement).2 (perform env' (r.statement statement)).2 := by
  cases statement with
  | blank => exact ⟨rfl, h⟩
  | command command => cases command <;> exact ⟨rfl, h⟩
  | assignment x source =>
      have hresolve := h.resolve? hplain
      simp only [statement, perform]
      cases hv : Session.resolve? env source with
      | none =>
          rw [assign_of_unresolved hv, assign_of_unresolved (hresolve.trans hv)]
          exact ⟨rfl, h⟩
      | some v =>
          rw [assign_of_resolve hv, assign_of_resolve (hresolve.trans hv)]
          exact ⟨rfl, h.assign (isIdentifier_of_plain hplain) v⟩
  | query x =>
      refine ⟨?_, h⟩
      rw [statement, perform, perform, h.query hplain]
      cases env.query x <;> rfl
  | expression source =>
      refine ⟨?_, h⟩
      rw [statement, perform, perform, h.evaluate_text hplain]
      cases evaluate env source <;> rfl

/-- **One line.** -/
theorem Renamed.execute_line (h : r.Renamed env env') {line : Text} (hline : line.Blankless) :
    (execute env' (r.line line)).1 = (execute env line).1.mapError r.error ∧
      r.Renamed (execute env line).2 (execute env' (r.line line)).2 := by
  rw [execute, r.parse_line hline, execute]
  cases hparse : Statement.parse line with
  | error cause => exact ⟨rfl, h⟩
  | ok statement => exact h.perform_statement (Statement.plain_of_parse hline hparse)

/-- **A row of lines.** -/
theorem Renamed.run_lines (h : r.Renamed env env') {lines : List Text}
    (hlines : ∀ line ∈ lines, Text.Blankless line) :
    (run env' (lines.map r.line)).1 = (run env lines).1.map (Except.mapError r.error) ∧
      r.Renamed (run env lines).2 (run env' (lines.map r.line)).2 := by
  induction lines generalizing env env' with
  | nil => exact ⟨rfl, h⟩
  | cons line lines ih =>
      obtain ⟨hresult, hafter⟩ := h.execute_line (hlines line List.mem_cons_self)
      obtain ⟨hresults, hlast⟩ := ih hafter fun other hother =>
        hlines other (List.mem_cons_of_mem line hother)
      rw [List.map_cons, run_cons, run_cons, List.map_cons, hresult, hresults]
      exact ⟨rfl, hlast⟩

/-- **Names are opaque.**  If the lines of a session have no blanks and all their names are
renamed, each line has the same result as before, with the new names in the place of the old ones
in an error; and after each line every name has, under its new name, the value that it had. -/
theorem names_are_opaque (r : Renaming) {lines : List Text}
    (h : ∀ line ∈ lines, Text.Blankless line) :
    (run Environment.empty (lines.map r.line)).1 =
        (run Environment.empty lines).1.map (Except.mapError r.error) ∧
      ∀ front, front <+: lines → ∀ x : Text, x.isIdentifier →
        (run Environment.empty (front.map r.line)).2.lookup (r.rename x) =
          (run Environment.empty front).2.lookup x := by
  have hstart : r.Renamed Environment.empty Environment.empty := fun x _ => rfl
  refine ⟨(hstart.run_lines h).1, ?_⟩
  intro front hfront
  exact (hstart.run_lines fun line hline => h line (hfront.subset hline)).2

/-- A letter in front of each name. -/
def prefixed (c : Char) (hc : c.isAlpha) : Renaming where
  rename x := c :: x
  maps hx := by
    obtain ⟨-, hletters⟩ := Text.isIdentifier_iff.1 hx
    exact Text.isIdentifier_iff.2 ⟨by simp, List.forall_mem_cons.2 ⟨hc, hletters⟩⟩
  injective _ _ heq := (List.cons.inj heq).2

/-- A variable, and lines that fail and tell a name, a left side or a character. -/
theorem names_are_opaque_prefixed :
    (∀ line ∈ ["a=7".toList, "a/ca".toList, "1a=2".toList, "a$".toList], Text.Blankless line) ∧
      (run Environment.empty
          ["qa=7".toList, "qa/qca".toList, "1qa=2".toList, "qa$".toList]).1 =
        [.ok .assigned, .error (.eval (.unknownVariable "qca".toList)),
          .error (.parse (.invalidIdentifier "1qa".toList)),
          .error (.parse (.strayCharacter '$'))] ∧
      (run Environment.empty ["qa=7".toList]).2.lookup "qa".toList =
        (run Environment.empty ["a=7".toList]).2.lookup "a".toList := by
  have hlines : ∀ line ∈ ["a=7".toList, "a/ca".toList, "1a=2".toList, "a$".toList],
      Text.Blankless line := by decide
  obtain ⟨hresults, hlookup⟩ := names_are_opaque (prefixed 'q' rfl) hlines
  have hfront : ["a=7".toList] <+:
      ["a=7".toList, "a/ca".toList, "1a=2".toList, "a$".toList] := by decide
  exact ⟨hlines, hresults.trans rfl, hlookup _ hfront "a".toList (by decide)⟩

end Renaming

end Calculator
