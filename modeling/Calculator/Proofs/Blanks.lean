import Calculator.Session
import Mathlib.Data.List.DropRight

/-!
# Blanks at the ends and blanks anywhere

Trimming takes blanks away at the two ends of a text, and stripping takes them
away wherever they stand.  The two know the same blanks, so a trimmed text and
the text it was trimmed from are the same once they are stripped: they start
with the same character and have the same characters other than blanks.

The tokens of a text, and so its value, depend on the stripped text alone.

* `exists_trim` — trimming takes away two stretches of blanks;
* `trim_blanks_append`, `trim_append_blanks`, `trim_eq_self` — and nothing besides them;
* `trim_of_blankless`, `stripBlanks_eq_self_iff` — a text that has none;
* `stripBlanks_trim`, `head?_trim` — what trimming and stripping agree on;
* `tokenize_congr`, `evaluate_congr` — texts that differ in blanks only have the
  same tokens and the same value;
* `execute_congr` — lines that differ in blanks at their ends do the same.
-/

namespace Calculator

namespace Text

/-- Trimming takes a stretch of blanks away in front and one behind. -/
theorem exists_trim (text : Text) :
    ∃ front back, text = front ++ trim text ++ back ∧ (∀ c ∈ front, isBlank c) ∧
      ∀ c ∈ back, isBlank c := by
  have hfront : text = text.takeWhile isBlank ++ text.dropWhile isBlank :=
    List.takeWhile_append_dropWhile.symm
  have hback : text.dropWhile isBlank =
      trim text ++ (text.dropWhile isBlank).rtakeWhile isBlank :=
    List.rdropWhile_append_rtakeWhile.symm
  refine ⟨text.takeWhile isBlank, (text.dropWhile isBlank).rtakeWhile isBlank, ?_, ?_, ?_⟩
  · rw [List.append_assoc, ← hback]
    exact hfront
  · exact fun c hc => List.mem_takeWhile_imp hc
  · exact fun c hc => List.mem_rtakeWhile_imp hc

/-- Blanks in front are lost. -/
theorem trim_blanks_append {front : Text} (h : ∀ c ∈ front, isBlank c) (text : Text) :
    trim (front ++ text) = trim text := by
  rw [trim, List.dropWhile_append_of_pos h, trim]

/-- Blanks behind are lost. -/
theorem trim_append_blanks {back : Text} (h : ∀ c ∈ back, isBlank c) (text : Text) :
    trim (text ++ back) = trim text := by
  by_cases hall : ∀ c ∈ text, isBlank c
  · rw [trim_blanks_append hall, trim_eq_nil h, trim_eq_nil hall]
  · have hkept : (text.dropWhile isBlank).isEmpty = false := by
      rw [List.isEmpty_eq_false_iff, Ne, List.dropWhile_eq_nil_iff]
      exact hall
    have hback : ∀ c ∈ back.reverse, isBlank c := fun c hc => h c (List.mem_reverse.1 hc)
    simp only [trim, List.dropWhile_append, hkept, List.reverse_append, Bool.false_eq_true,
      if_false, List.dropWhile_append_of_pos hback]

/-- A text with a blank at neither end is left as it is. -/
theorem trim_eq_self {text : Text} (hhead : ∀ c ∈ text.head?, isBlank c = false)
    (hlast : ∀ c ∈ text.getLast?, isBlank c = false) : trim text = text := by
  have hfront : text.dropWhile isBlank = text := by
    cases text with
    | nil => rfl
    | cons c rest => rw [List.dropWhile_cons_of_neg (by simpa using hhead c rfl)]
  have hback : text.rdropWhile isBlank = text := by
    rw [List.rdropWhile_eq_self_iff]
    intro hne
    simpa using hlast _ (List.getLast?_eq_some_getLast hne)
  rw [trim, hfront]
  exact hback

/-- A trimmed text has a blank at neither end. -/
theorem trim_trim (text : Text) : trim (trim text) = trim text := by
  obtain ⟨front, back, htext, hfront, hback⟩ := exists_trim text
  calc trim (trim text)
      = trim (front ++ trim text ++ back) := by
        rw [trim_append_blanks hback, trim_blanks_append hfront]
    _ = trim text := by rw [← htext]

/-- A text without any blank. -/
def Blankless (text : Text) : Prop :=
  ∀ c ∈ text, isBlank c = false

instance (text : Text) : Decidable text.Blankless :=
  List.decidableBAll _ text

theorem trim_of_blankless {text : Text} (h : text.Blankless) : trim text = text :=
  trim_eq_self (fun c hc => h c (List.mem_of_mem_head? hc))
    fun c hc => h c (List.mem_of_mem_getLast? hc)

theorem stripBlanks_eq_self_iff {text : Text} : stripBlanks text = text ↔ text.Blankless := by
  simp [stripBlanks, List.filter_eq_self, Blankless]

theorem stripBlanks_eq_nil {text : Text} (h : ∀ c ∈ text, isBlank c) : stripBlanks text = [] := by
  refine List.filter_eq_nil_iff.2 fun c hc => ?_
  simp [h c hc]

theorem mem_stripBlanks {c : Char} {text : Text} :
    c ∈ stripBlanks text ↔ c ∈ text ∧ isBlank c = false := by
  simp [stripBlanks]

/-- **Trimming takes nothing away that stripping leaves.** -/
theorem stripBlanks_trim (text : Text) : stripBlanks (trim text) = stripBlanks text := by
  obtain ⟨front, back, htext, hfront, hback⟩ := exists_trim text
  calc stripBlanks (trim text)
      = stripBlanks front ++ stripBlanks (trim text) ++ stripBlanks back := by
        rw [stripBlanks_eq_nil hfront, stripBlanks_eq_nil hback, List.append_nil, List.nil_append]
    _ = stripBlanks (front ++ trim text ++ back) := by
        rw [stripBlanks_append, stripBlanks_append]
    _ = stripBlanks text := by rw [← htext]

/-- A trimmed text starts with no blank. -/
theorem not_isBlank_head_trim {c : Char} {text rest : Text} (h : trim text = c :: rest) :
    isBlank c = false := by
  obtain ⟨back, hback⟩ := List.rdropWhile_prefix isBlank (text.dropWhile isBlank)
  have hdropped : text.dropWhile isBlank = c :: (rest ++ back) := by
    rw [← hback]
    exact congrArg (· ++ back) h
  have hstop := List.head?_dropWhile_not isBlank text
  rwa [hdropped] at hstop

/-- **A trimmed text starts as the stripped text does.** -/
theorem head?_trim (text : Text) : (trim text).head? = (stripBlanks text).head? := by
  rw [← stripBlanks_trim]
  cases htrim : trim text with
  | nil => rfl
  | cons c rest =>
      have hc : isBlank c = false := not_isBlank_head_trim htrim
      simp [stripBlanks, hc]

theorem trim_eq_nil_iff {text : Text} : trim text = [] ↔ stripBlanks text = [] := by
  rw [← List.head?_eq_none_iff, head?_trim, List.head?_eq_none_iff]

/-- A character that is no blank is not lost at the ends. -/
theorem mem_trim_iff {c : Char} (hc : isBlank c = false) {text : Text} :
    c ∈ trim text ↔ c ∈ stripBlanks text := by
  rw [← stripBlanks_trim, mem_stripBlanks, and_iff_left hc]

end Text

/-- **Texts that differ in blanks only have the same tokens.** -/
theorem tokenize_congr {s t : Text} (h : s.stripBlanks = t.stripBlanks) :
    tokenize s = tokenize t := by
  rw [tokenize, tokenize, h]

/-- Texts that differ in blanks only have the same value. -/
theorem Session.evaluate_congr {s t : Text} (h : s.stripBlanks = t.stripBlanks)
    (env : Environment) : evaluate env s = evaluate env t := by
  rw [evaluate, evaluate, tokenize_congr h]

/-- Lines that differ in blanks at their ends only are the same to a session. -/
theorem Session.execute_congr {line other : Text} (h : line.trim = other.trim)
    (env : Environment) : execute env line = execute env other := by
  rw [execute, execute, Statement.parse, Statement.parse, h]

end Calculator
