import Calculator.Proofs.Numerals
import Calculator.Proofs.Readings

/-!
# The grammar of assignments

An assignment has one equals sign, a name on its left and the source of a value
on its right, which is a literal or a name.  Blanks around the two sides do not
count.  A line without the one equals sign has no sides at all, and is refused
for its shape.  If there are sides and neither is blank, then what is wrong with
the left one is told before anything is said about the right one; everything else
that is wrong is wrong with the shape.

The two sides lose the blanks around them, so it makes no difference whether the
line has lost the blanks at its ends before it is cut.

* `exists_sides_iff` — one equals sign makes two sides;
* `assign_eq_invalidIdentifier_iff`, `assign_error_cases` — what is wrong with two sides;
* `parseAssignment_of_sides`, `parseAssignment_of_no_sides` — what a line says by its sides;
* `parse_eq_parseAssignment` — lines with an equals sign that are no commands;
* `parse_written` — an assignment that was written is read as that assignment.
-/

namespace Calculator

/-- The texts that a source may be written as. -/
inductive Source.WrittenAs : Source → Text → Prop
  | literal {text : Text} {n : Int} (h : Decimal.Spells text n) : WrittenAs (.literal n) text
  | copy {name : Text} (h : name.isIdentifier) : WrittenAs (.copy name) name

/-- A text names the source that it is a writing of. -/
theorem Source.ofText?_eq_some_iff {text : Text} {source : Source} :
    ofText? text = some source ↔ source.WrittenAs text := by
  constructor
  · intro h
    rw [ofText?] at h
    split at h
    · next n hread =>
      cases h
      exact .literal (Decimal.literal?_eq_some_iff.1 hread)
    · split at h
      · next hname =>
        cases h
        exact .copy hname
      · cases h
  · intro h
    cases h with
    | literal hspells => simp [ofText?, Decimal.literal?_eq_some_iff.2 hspells]
    | copy hname => exact ofText?_of_isIdentifier hname

/-! ## The sides of a line -/

/-- The two sides of the one equals sign of a line. -/
structure Sides (line left right : Text) : Prop where
  cut : line = left ++ '=' :: right
  left : '=' ∉ left
  right : '=' ∉ right

theorem notMem_of_blanks {blanks : Text} (h : ∀ c ∈ blanks, Text.isBlank c) : '=' ∉ blanks :=
  fun hmem => absurd (h '=' hmem) (by decide)

theorem Sides.splitOn {line left right : Text} (h : Sides line left right) :
    line.splitOn '=' = [left, right] := by
  rw [h.cut, List.splitOn_append_cons_self_of_not_mem h.left, List.splitOn_eq_singleton h.right]

theorem Sides.count {line left right : Text} (h : Sides line left right) :
    line.count '=' = 1 := by
  rw [h.cut, List.count_append, List.count_cons_self, List.count_eq_zero.2 h.left,
    List.count_eq_zero.2 h.right]

/-- **A line has no equals sign, or one and so two sides, or more than one.** -/
theorem sides_cases (line : Text) :
    '=' ∉ line ∨ (∃ left right, Sides line left right) ∨
      ∃ first second third, line = first ++ '=' :: (second ++ '=' :: third) ∧ '=' ∉ first ∧
        '=' ∉ second := by
  by_cases hline : '=' ∈ line
  · obtain ⟨first, rest, rfl, hfirst⟩ := List.eq_append_cons_of_mem hline
    by_cases hrest : '=' ∈ rest
    · obtain ⟨second, third, rfl, hsecond⟩ := List.eq_append_cons_of_mem hrest
      exact .inr (.inr ⟨first, second, third, rfl, hfirst, hsecond⟩)
    · exact .inr (.inl ⟨first, rest, rfl, hfirst, hrest⟩)
  · exact .inl hline

/-- One equals sign makes two sides. -/
theorem exists_sides_iff {line : Text} :
    (∃ left right, Sides line left right) ↔ line.count '=' = 1 := by
  constructor
  · intro h
    obtain ⟨left, right, hsides⟩ := h
    exact hsides.count
  · intro hcount
    obtain hnone | hsides | ⟨first, second, third, rfl, -, -⟩ := sides_cases line
    · rw [List.count_eq_zero.2 hnone] at hcount
      cases hcount
    · exact hsides
    · simp only [List.count_append, List.count_cons_self] at hcount
      omega

namespace Statement

/-! ## What is wrong with two sides -/

/-- The left side is told to be no name only if both sides are there. -/
theorem assign_eq_invalidIdentifier_iff {left right name : Text} :
    assign left right = .error (.invalidIdentifier name) ↔
      left ≠ [] ∧ right ≠ [] ∧ ¬left.isIdentifier ∧ name = left := by
  rw [assign]
  by_cases hblank : left.isEmpty || right.isEmpty
  · rw [if_pos hblank]
    have hnot : left ≠ [] → right = [] := by simpa [or_iff_not_imp_left] using hblank
    simp +contextual [hnot]
  · rw [if_neg hblank]
    simp only [Bool.or_eq_true, List.isEmpty_iff, not_or] at hblank
    by_cases hname : left.isIdentifier
    · simp only [hname, Bool.not_true, Bool.false_eq_true, if_false, not_true_eq_false, false_and,
        and_false, iff_false]
      split <;> simp
    · simp [hname, hblank, eq_comm]

/-- Whatever else is wrong is wrong with the shape. -/
theorem assign_error_cases {left right : Text} {cause : ParseError}
    (h : assign left right = .error cause) :
    cause = .invalidAssignment ∨ cause = .invalidIdentifier left := by
  rw [assign] at h
  split at h
  · cases h
    exact .inl rfl
  · split at h
    · cases h
      exact .inr rfl
    · split at h
      · cases h
      · cases h
        exact .inl rfl

/-! ## What a line says -/

theorem parseAssignment_of_sides {line left right : Text} (h : Sides line left right) :
    parseAssignment line = assign left.trim right.trim := by
  rw [parseAssignment, h.splitOn]

/-- Without the one equals sign there is no assignment. -/
theorem parseAssignment_of_no_sides {line : Text} (h : ∀ left right, ¬Sides line left right) :
    parseAssignment line = .error .invalidAssignment := by
  obtain hnone | ⟨left, right, hsides⟩ | ⟨first, second, third, rfl, hfirst, hsecond⟩ :=
    sides_cases line
  · rw [parseAssignment, List.splitOn_eq_singleton hnone]
  · exact absurd hsides (h left right)
  · obtain ⟨piece, pieces, hthird⟩ := List.exists_cons_of_ne_nil (List.splitOn_ne_nil '=' third)
    rw [parseAssignment, List.splitOn_append_cons_self_of_not_mem hfirst,
      List.splitOn_append_cons_self_of_not_mem hsecond, hthird]

/-- A line says what its sides say, if it has them. -/
theorem parseAssignment_eq_iff {line : Text} {result : Except ParseError Statement}
    (h : result ≠ .error .invalidAssignment) :
    parseAssignment line = result ↔
      ∃ left right, Sides line left right ∧ assign left.trim right.trim = result := by
  constructor
  · intro hresult
    by_cases hsides : ∃ left right, Sides line left right
    · obtain ⟨left, right, hsides⟩ := hsides
      exact ⟨left, right, hsides, parseAssignment_of_sides hsides ▸ hresult⟩
    · have hnone := parseAssignment_of_no_sides fun left right hs => hsides ⟨left, right, hs⟩
      exact absurd (hresult.symm.trans hnone) h
  · intro hassign
    obtain ⟨left, right, hsides, hresult⟩ := hassign
    rw [parseAssignment_of_sides hsides, hresult]

theorem parseAssignment_error_cases {line : Text} {cause : ParseError}
    (h : parseAssignment line = .error cause) :
    cause = .invalidAssignment ∨ ∃ name, cause = .invalidIdentifier name := by
  by_cases hcause : cause = .invalidAssignment
  · exact .inl hcause
  · obtain ⟨left, right, -, hassign⟩ := (parseAssignment_eq_iff (by simpa using hcause)).1 h
    exact (assign_error_cases hassign).imp_right fun heq => ⟨_, heq⟩

/-- **Blanks at the ends of a line** do not change the assignment that it says. -/
theorem parseAssignment_trim (line : Text) : parseAssignment line.trim = parseAssignment line := by
  obtain ⟨front, back, hline, hfront, hback⟩ := Text.exists_trim line
  by_cases hsides : ∃ left right, Sides line.trim left right
  · obtain ⟨left, right, hsides⟩ := hsides
    have hwhole : Sides line (front ++ left) (right ++ back) := by
      refine ⟨?_, ?_, ?_⟩
      · rw [hline, hsides.cut]
        simp
      · rw [List.mem_append, not_or]
        exact ⟨notMem_of_blanks hfront, hsides.left⟩
      · rw [List.mem_append, not_or]
        exact ⟨hsides.right, notMem_of_blanks hback⟩
    rw [parseAssignment_of_sides hsides, parseAssignment_of_sides hwhole,
      Text.trim_blanks_append hfront, Text.trim_append_blanks hback]
  · have hcount : line.trim.count '=' = line.count '=' := by
      conv_rhs => rw [hline]
      rw [List.count_append, List.count_append, List.count_eq_zero.2 (notMem_of_blanks hfront),
        List.count_eq_zero.2 (notMem_of_blanks hback), Nat.zero_add, Nat.add_zero]
    have hwhole : ¬∃ left right, Sides line left right := by
      rwa [exists_sides_iff, ← hcount, ← exists_sides_iff]
    rw [parseAssignment_of_no_sides fun left right hs => hsides ⟨left, right, hs⟩,
      parseAssignment_of_no_sides fun left right hs => hwhole ⟨left, right, hs⟩]

/-- **A line with an equals sign is read as an assignment**, unless it starts like a command. -/
theorem parse_eq_parseAssignment {line : Text} (hequals : '=' ∈ line)
    (hslash : line.find? (fun c => !Text.isBlank c) ≠ some '/') :
    parse line = parseAssignment line := by
  have htrim : '=' ∈ line.trim := by
    rw [Text.mem_trim_iff (by decide), Text.mem_stripBlanks]
    exact ⟨hequals, by decide⟩
  obtain ⟨hnil, -⟩ | ⟨hhead, -⟩ | ⟨-, -, hparse⟩ | ⟨-, -, hnone, -⟩ := parse_cases line
  · rw [hnil] at htrim
    cases htrim
  · rw [Text.head?_trim, Text.stripBlanks, List.head?_filter] at hhead
    exact absurd hhead hslash
  · rw [hparse, parseAssignment_trim]
  · exact absurd htrim hnone

/-! ## Assignments that are written -/

/-- A text that is a source has neither blanks nor an equals sign. -/
theorem notMem_of_writtenAs {source : Source} {text : Text} (h : source.WrittenAs text) :
    text.Blankless ∧ '=' ∉ text := by
  have hdigits : ∀ {digits : Text}, digits.isNumeral →
      ∀ c ∈ digits, Text.isBlank c = false ∧ '=' ≠ c := by
    intro digits hnumeral c hc
    have hdigit := (Decimal.isNumeral_iff.1 hnumeral).2 c hc
    refine ⟨Text.not_isBlank_of_isDigit hdigit, ?_⟩
    rintro rfl
    cases hdigit
  have hall : ∀ c ∈ text, Text.isBlank c = false ∧ '=' ≠ c := by
    cases h with
    | literal hspells =>
        cases hspells with
        | unsigned hnumeral => exact hdigits hnumeral
        | plus hnumeral => exact List.forall_mem_cons.2 ⟨by decide, hdigits hnumeral⟩
        | minus hnumeral => exact List.forall_mem_cons.2 ⟨by decide, hdigits hnumeral⟩
    | copy hname =>
        intro c hc
        refine ⟨Text.blankless_of_isIdentifier hname c hc, ?_⟩
        rintro rfl
        exact Text.notMem_of_isIdentifier hname (by decide) hc
  exact ⟨fun c hc => (hall c hc).1, fun hmem => (hall '=' hmem).2 rfl⟩

section Written

variable {name text : Text} {source : Source} (hname : name.isIdentifier)
  (hsource : source.WrittenAs text) {front left right back : Text}
  (hfront : ∀ c ∈ front, Text.isBlank c) (hleft : ∀ c ∈ left, Text.isBlank c)
  (hright : ∀ c ∈ right, Text.isBlank c) (hback : ∀ c ∈ back, Text.isBlank c)
include hname hsource hfront hleft hright hback

theorem parseAssignment_written :
    parseAssignment (front ++ name ++ left ++ '=' :: (right ++ text ++ back)) =
      .ok (.assignment name source) := by
  obtain ⟨hblankless, hequals⟩ := notMem_of_writtenAs hsource
  have hsides : Sides (front ++ name ++ left ++ '=' :: (right ++ text ++ back))
      (front ++ name ++ left) (right ++ text ++ back) := by
    refine ⟨rfl, ?_, ?_⟩
    · simp only [List.mem_append, not_or]
      exact ⟨⟨notMem_of_blanks hfront, Text.notMem_of_isIdentifier hname (by decide)⟩,
        notMem_of_blanks hleft⟩
    · simp only [List.mem_append, not_or]
      exact ⟨⟨notMem_of_blanks hright, hequals⟩, notMem_of_blanks hback⟩
  have hname' : Text.trim (front ++ name ++ left) = name := by
    rw [Text.trim_append_blanks hleft, Text.trim_blanks_append hfront,
      Text.trim_of_isIdentifier hname]
  have htext : Text.trim (right ++ text ++ back) = text := by
    rw [Text.trim_append_blanks hback, Text.trim_blanks_append hright,
      Text.trim_of_blankless hblankless]
  rw [parseAssignment_of_sides hsides, hname', htext, assign_eq_ok_iff]
  exact ⟨source, hname, Source.ofText?_eq_some_iff.2 hsource, rfl⟩

/-- **An assignment that was written is read as that assignment**, whatever blanks are around its
two sides. -/
theorem parse_written :
    parse (front ++ name ++ left ++ '=' :: (right ++ text ++ back)) =
      .ok (.assignment name source) := by
  have hslash : (front ++ name ++ left ++ '=' :: (right ++ text ++ back)).find?
      (fun c => !Text.isBlank c) ≠ some '/' := by
    obtain ⟨first, rest, rfl, hfirst⟩ := Text.exists_cons_of_isIdentifier hname
    have hnone : front.find? (fun c => !Text.isBlank c) = none := by simpa using hfront
    rw [List.append_assoc, List.append_assoc, List.find?_append, hnone, Option.none_or,
      List.cons_append, List.find?_cons_of_pos (by simp [Text.not_isBlank_of_isAlpha hfirst])]
    intro heq
    cases heq
    cases hfirst
  rw [parse_eq_parseAssignment (by simp) hslash]
  exact parseAssignment_written hname hsource hfront hleft hright hback

end Written

/-- **Assignments are read by exactly their grammar.**  A line says an assignment exactly if it has
one equals sign, a name on its left and a literal or a name on its right, blanks around them aside,
and it says that name and that source.  It is refused for its left side exactly if it has one equals
sign, neither side is blank and the left one is no name, whatever the right one is; and for its
shape in every other case.  Any line with an equals sign that does not start like a command is read
in just this way; so an assignment that was written, with any blanks around its two sides, is read
as that assignment. -/
theorem assignments_have_their_grammar :
    (∀ line, (∃ left right, Sides line left right) ↔ line.count '=' = 1) ∧
      (∀ line statement, parseAssignment line = .ok statement ↔
        ∃ (left right : Text) (source : Source), Sides line left right ∧ left.trim.isIdentifier ∧
          source.WrittenAs right.trim ∧ statement = .assignment left.trim source) ∧
      (∀ line name, parseAssignment line = .error (.invalidIdentifier name) ↔
        ∃ left right : Text, Sides line left right ∧ left.trim ≠ [] ∧ right.trim ≠ [] ∧
          ¬left.trim.isIdentifier ∧ name = left.trim) ∧
      (∀ line cause, parseAssignment line = .error cause →
        cause = .invalidAssignment ∨ ∃ name, cause = .invalidIdentifier name) ∧
      (∀ line, '=' ∈ line → line.find? (fun c => !Text.isBlank c) ≠ some '/' →
        parse line = parseAssignment line) ∧
      ∀ (name text : Text) (source : Source) (front left right back : Text), name.isIdentifier →
        source.WrittenAs text → (∀ c ∈ front ++ left ++ right ++ back, Text.isBlank c) →
        parse (front ++ name ++ left ++ '=' :: (right ++ text ++ back)) =
            .ok (.assignment name source) ∧
          parseAssignment (front ++ name ++ left ++ '=' :: (right ++ text ++ back)) =
            .ok (.assignment name source) := by
  refine ⟨fun line => exists_sides_iff, ?_, ?_, ?_, ?_, ?_⟩
  · intro line statement
    rw [parseAssignment_eq_iff (by simp)]
    simp only [assign_eq_ok_iff, Source.ofText?_eq_some_iff, exists_and_left]
  · intro line name
    rw [parseAssignment_eq_iff (by simp)]
    simp only [assign_eq_invalidIdentifier_iff]
  · intro line cause
    exact parseAssignment_error_cases
  · intro line
    exact parse_eq_parseAssignment
  · intro name text source front left right back hname hsource hblanks
    simp only [List.mem_append, or_imp, forall_and] at hblanks
    obtain ⟨⟨⟨hfront, hleft⟩, hright⟩, hback⟩ := hblanks
    exact ⟨parse_written hname hsource hfront hleft hright hback,
      parseAssignment_written hname hsource hfront hleft hright hback⟩

/-- A literal with a sign and zeros in front, a left side that is no name in front of a right side
that is nothing, a blank right side, and two equals signs. -/
theorem assignments_have_their_grammar_samples :
    parse "\u0085x\u3000= -007\t".toList = .ok (.assignment ['x'] (.literal (-7))) ∧
      parseAssignment " 1a = 2 + 3".toList = .error (.invalidIdentifier ['1', 'a']) ∧
      parse " 1a = 2 + 3".toList = .error (.invalidIdentifier ['1', 'a']) ∧
      (∃ cause, parseAssignment "1a = ".toList = .error cause ∧
        (cause = .invalidAssignment ∨ ∃ name, cause = .invalidIdentifier name)) ∧
      parseAssignment "a = b = c".toList = .error .invalidAssignment := by
  obtain ⟨-, -, hname, hcause, hparse, hwritten⟩ := assignments_have_their_grammar
  have hdigits : Text.isNumeral "007".toList := by decide
  have hliteral : (Source.literal (-7)).WrittenAs "-007".toList := .literal (.minus hdigits)
  have hrefused : parseAssignment " 1a = 2 + 3".toList = .error (.invalidIdentifier ['1', 'a']) :=
    (hname _ _).2 ⟨" 1a ".toList, " 2 + 3".toList, ⟨rfl, by decide, by decide⟩, by decide⟩
  have hshape : parseAssignment "1a = ".toList = .error .invalidAssignment := by rfl
  refine ⟨?_, hrefused, ?_, ⟨_, hshape, hcause _ _ hshape⟩, by rfl⟩
  · exact (hwritten ['x'] _ _ ['\u0085'] ['\u3000'] [' '] ['\t'] (by decide) hliteral
      (List.all_eq_true.1 (by decide))).1
  · rw [hparse _ (by decide) (by decide), hrefused]

end Statement

end Calculator
