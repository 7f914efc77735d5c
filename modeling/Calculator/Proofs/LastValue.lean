import Calculator.Proofs.Transcripts

/-!
# The value that comes last

In the terse mode a script keeps the value that it computes last.  The same is
seen in all that it prints: among the items that are no failures the values are
the decimal integers, for neither the help nor the farewell is one.  So what is
kept is the last decimal integer that is printed, whatever is printed after it.

* `reply?_bind_numeral?` — what a line prints is a numeral exactly if its result is a value;
* `output_terse_eq` — the terse output, read off the full one;
* `literal?_of_mem_output` — each numeral that is printed is the one way to write its integer.
-/

namespace Calculator.Script

/-- The decimal integer that an item is, if it is one. -/
def numeral? : Except Error Text → Option Text
  | .ok text => if (Decimal.literal? text).isSome then some text else none
  | .error _ => none

theorem numeral?_eq_some_iff {item : Except Error Text} {text : Text} :
    numeral? item = some text ↔ item = .ok text ∧ (Decimal.literal? text).isSome := by
  cases item with
  | error cause => simp [numeral?]
  | ok line =>
      rw [numeral?, Except.ok.injEq]
      constructor
      · intro h
        split at h
        · next hread =>
          cases h
          exact ⟨rfl, hread⟩
        · cases h
      · rintro ⟨rfl, hread⟩
        exact if_pos hread

theorem numeral?_eq_none_iff {item : Except Error Text} :
    numeral? item = none ↔ ∀ text, item = .ok text → Decimal.literal? text = none := by
  cases item with
  | error cause => simp [numeral?]
  | ok line => simp [numeral?]

/-- The help is no numeral: it starts with a letter. -/
theorem literal?_helpText : Decimal.literal? helpText = none := by
  obtain ⟨rest, hrest⟩ := List.head?_eq_some_iff.1 head?_helpText
  rw [hrest]
  exact Decimal.literal?_of_isAlpha (by decide) rest

theorem numeral?_of_literal? {text : Text} (h : Decimal.literal? text = none) :
    numeral? (.ok text) = none := by
  simp [numeral?, h]

/-- **What a line prints is a numeral exactly if its result is a value.** -/
theorem reply?_bind_numeral? (result : Except Error Outcome) :
    (reply? result).bind numeral? = (value? result).map Decimal.render := by
  match result with
  | .ok (.value v) => simp [reply?, value?, numeral?, Decimal.literal?_render]
  | .ok .help =>
      rw [reply?, Option.bind_some, numeral?_of_literal? literal?_helpText]
      rfl
  | .ok .exit =>
      rw [reply?, Option.bind_some, numeral?_of_literal? literal?_farewell]
      rfl
  | .ok .assigned | .ok .nothing | .error _ => simp [reply?, value?, numeral?]

/-- The numerals among all that lines print are the values among their results. -/
theorem filterMap_numeral? (env : Environment) (lines : List Text) :
    (transcriptFrom env lines).filterMap numeral? =
      ((run env lines).1.filterMap value?).map Decimal.render := by
  rw [transcriptFrom, List.filterMap_filterMap, List.map_filterMap]
  exact List.filterMap_congr fun result _ => reply?_bind_numeral? result

/-- **The terse output is the last numeral of the full one.** -/
theorem output_terse_eq (source : Text) :
    output .terse source =
      ((output .full source).filterMap numeral?).getLast?.toList.map .ok := by
  have hfull : output .full source = transcriptFrom Environment.empty source.lines := rfl
  rw [hfull, filterMap_numeral?, List.getLast?_map, ← lastValue?, output]
  cases lastValue? source <;> rfl

/-- The last member of a row for which there is something is followed by none such. -/
theorem getLast?_filterMap_eq_some_iff {α β : Type} {f : α → Option β} {row : List α} {b : β} :
    (row.filterMap f).getLast? = some b ↔
      ∃ front a back, row = front ++ a :: back ∧ f a = some b ∧ ∀ x ∈ back, f x = none := by
  rw [List.getLast?_filterMap, List.findSome?_eq_some_iff]
  constructor
  · intro h
    obtain ⟨back, a, front, hrow, ha, hnone⟩ := h
    refine ⟨front.reverse, a, back.reverse, ?_, ha, fun x hx => hnone x (List.mem_reverse.1 hx)⟩
    rw [← List.reverse_reverse row, hrow]
    simp
  · intro h
    obtain ⟨front, a, back, rfl, ha, hnone⟩ := h
    exact ⟨back.reverse, a, front.reverse, by simp, ha,
      fun x hx => hnone x (List.mem_reverse.1 hx)⟩

/-- Each numeral that is printed is the one way to write its integer. -/
theorem literal?_of_mem_output {source text : Text} (h : .ok text ∈ output .full source) (n : Int) :
    Decimal.literal? text = some n ↔ text = Decimal.render n := by
  constructor
  · intro hread
    rw [output, transcript, transcriptFrom, List.mem_filterMap] at h
    obtain ⟨result, -, hreply⟩ := h
    have hnumeral : (reply? result).bind numeral? = some text := by
      rw [hreply]
      exact numeral?_eq_some_iff.2 ⟨rfl, Option.isSome_of_eq_some hread⟩
    rw [reply?_bind_numeral?] at hnumeral
    obtain ⟨v, -, rfl⟩ := Option.map_eq_some_iff.1 hnumeral
    rw [Decimal.literal?_render] at hread
    rw [Option.some.inj hread]
  · rintro rfl
    exact Decimal.literal?_render n

/-- **The terse mode keeps the last decimal integer.**  It prints one item or none, and no
failure.  It prints none exactly if no item of the full output is a decimal integer, and otherwise
the last one that is, whatever failures and other texts come after it.  It makes no difference
whether a decimal integer is any text that reads as one or only the one way to write it. -/
theorem terse_keeps_last_numeral (source : Text) :
    (output .terse source = [] ∨ ∃ text, output .terse source = [.ok text]) ∧
      (output .terse source = [] ↔
        ∀ text, .ok text ∈ output .full source → Decimal.literal? text = none) ∧
      (∀ text, output .terse source = [.ok text] ↔
        ∃ front back, output .full source = front ++ .ok text :: back ∧
          (Decimal.literal? text).isSome ∧
          ∀ later, .ok later ∈ back → Decimal.literal? later = none) ∧
      ∀ text n, .ok text ∈ output .full source →
        (Decimal.literal? text = some n ↔ text = Decimal.render n) := by
  rw [output_terse_eq]
  refine ⟨?_, ?_, ?_, fun text n htext => literal?_of_mem_output htext n⟩
  · cases ((output .full source).filterMap numeral?).getLast? with
    | none => exact .inl rfl
    | some text => exact .inr ⟨text, rfl⟩
  · rw [List.map_eq_nil_iff, Option.toList_eq_nil_iff, List.getLast?_eq_none_iff,
      List.filterMap_eq_nil_iff]
    simp only [numeral?_eq_none_iff]
    exact ⟨fun h text htext => h _ htext text rfl,
      fun h item hitem text heq => h text (heq ▸ hitem)⟩
  · intro text
    have hlast : ((output .full source).filterMap numeral?).getLast?.toList.map .ok =
        [(.ok text : Except Error Text)] ↔
        ((output .full source).filterMap numeral?).getLast? = some text := by
      cases ((output .full source).filterMap numeral?).getLast? <;> simp
    rw [hlast, getLast?_filterMap_eq_some_iff]
    simp only [numeral?_eq_some_iff, numeral?_eq_none_iff]
    constructor
    · rintro ⟨front, item, back, hfull, ⟨rfl, hread⟩, hback⟩
      exact ⟨front, back, hfull, hread, fun later hlater => hback _ hlater later rfl⟩
    · rintro ⟨front, back, hfull, hread, hback⟩
      exact ⟨front, .ok text, back, hfull, ⟨rfl, hread⟩,
        fun item hitem later heq => hback later (heq ▸ hitem)⟩

/-- After the last value come a failure and the farewell, and a session may have no value at all. -/
theorem terse_keeps_last_numeral_farewell :
    output .terse "6 * -7\n1 / 0\n/exit\n1".toList = [.ok ['-', '4', '2']] ∧
      output .terse "a = 1\nb\n/exit\n1".toList = [] := by
  have hvalue := terse_keeps_last_numeral "6 * -7\n1 / 0\n/exit\n1".toList
  have hnone := terse_keeps_last_numeral "a = 1\nb\n/exit\n1".toList
  have hafter : ∀ later, .ok later ∈ ([.error (.eval .divisionByZero), .ok farewell] :
      List (Except Error Text)) → Decimal.literal? later = none := by
    simp [literal?_farewell]
  have hitems : ∀ text, .ok text ∈ output .full "a = 1\nb\n/exit\n1".toList →
      Decimal.literal? text = none := by
    have hfull : output .full "a = 1\nb\n/exit\n1".toList =
        [.error (.eval (.unknownVariable ['b'])), .ok farewell] := by rfl
    rw [hfull]
    simp [literal?_farewell]
  exact ⟨(hvalue.2.2.1 _).2 ⟨[], _, by rfl, by decide, hafter⟩, hnone.2.1.2 hitems⟩

end Calculator.Script
