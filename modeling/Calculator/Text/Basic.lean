/-!
# Text, blanks and names

A text is the list of its characters, so every reading below is a recursion on
a list and has the list lemmas at hand.  Two classes of characters matter and
they come from different places: the **blanks** are the whole Unicode property
`White_Space`, while **letters** and **digits** are the ASCII ones only
(`Char.isAlpha`, `Char.isDigit`).

* `not_isBlank_of_isAlpha`, `not_isBlank_of_isDigit` — the two classes never meet;
* `stripBlanks_stripBlanks` — stripping leaves nothing more to strip;
* `trim_eq_nil` — a text of blanks trims to nothing.
-/

namespace Calculator

/-- A text, character by character. -/
abbrev Text := List Char

namespace Text

/-- The code points of the Unicode property `White_Space`, as closed ranges in
increasing order. -/
def blankRanges : List (Nat × Nat) :=
  [(0x09, 0x0D), (0x20, 0x20), (0x85, 0x85), (0xA0, 0xA0), (0x1680, 0x1680),
    (0x2000, 0x200A), (0x2028, 0x2029), (0x202F, 0x202F), (0x205F, 0x205F),
    (0x3000, 0x3000)]

/-- Whether a character is a blank. -/
def isBlank (c : Char) : Bool :=
  blankRanges.any fun range => range.1 ≤ c.toNat && c.toNat ≤ range.2

/-- The text without any of its blanks, wherever they stand. -/
def stripBlanks (text : Text) : Text :=
  text.filter fun c => !isBlank c

/-- The text without the blanks at its two ends. -/
def trim (text : Text) : Text :=
  ((text.dropWhile isBlank).reverse.dropWhile isBlank).reverse

/-- A name is a letter or more, and nothing but letters. -/
def isIdentifier (text : Text) : Bool :=
  !text.isEmpty && text.all Char.isAlpha

/-- A numeral is a digit or more, and nothing but digits. -/
def isNumeral (text : Text) : Bool :=
  !text.isEmpty && text.all Char.isDigit

/-- There are 25 blanks. -/
example : (blankRanges.map fun range => range.2 + 1 - range.1).sum = 25 := by decide

/-- A character outside the ranges is no blank. -/
theorem isBlank_eq_false_iff {c : Char} :
    isBlank c = false ↔ ∀ range ∈ blankRanges, c.toNat < range.1 ∨ range.2 < c.toNat := by
  simp only [isBlank, List.any_eq_false, Bool.and_eq_true, decide_eq_true_eq]
  exact forall₂_congr fun _ _ => by omega

/-- The letters are two ranges of code points. -/
theorem isAlpha_iff_toNat {c : Char} :
    c.isAlpha ↔ (65 ≤ c.toNat ∧ c.toNat ≤ 90) ∨ (97 ≤ c.toNat ∧ c.toNat ≤ 122) := by
  change (decide (65 ≤ c.val ∧ c.val ≤ 90) || (decide (97 ≤ c.val) && decide (c.val ≤ 122))) = true
    ↔ _
  simp only [Bool.or_eq_true, Bool.and_eq_true, decide_eq_true_eq, UInt32.le_iff_toNat_le]
  rfl

/-- A letter is no blank. -/
theorem not_isBlank_of_isAlpha {c : Char} (h : c.isAlpha) : isBlank c = false := by
  rw [isAlpha_iff_toNat] at h
  rw [isBlank_eq_false_iff]
  simp only [blankRanges, List.forall_mem_cons, List.not_mem_nil, false_implies, implies_true,
    and_true]
  and_intros <;> omega

/-- A digit is no blank. -/
theorem not_isBlank_of_isDigit {c : Char} (h : c.isDigit) : isBlank c = false := by
  have bounds : 48 ≤ c.toNat ∧ c.toNat ≤ 57 := Char.isDigit_iff_toNat.1 h
  rw [isBlank_eq_false_iff]
  simp only [blankRanges, List.forall_mem_cons, List.not_mem_nil, false_implies, implies_true,
    and_true]
  and_intros <;> omega

theorem not_isAlpha_of_isDigit {c : Char} (h : c.isDigit) : c.isAlpha = false := by
  have bounds : 48 ≤ c.toNat ∧ c.toNat ≤ 57 := Char.isDigit_iff_toNat.1 h
  rw [← Bool.not_eq_true, isAlpha_iff_toNat]
  omega

theorem not_isDigit_of_isAlpha {c : Char} (h : c.isAlpha) : c.isDigit = false := by
  cases hdigit : c.isDigit with
  | false => rfl
  | true =>
      have := not_isAlpha_of_isDigit hdigit
      simp [this] at h

@[simp] theorem stripBlanks_append (s t : Text) :
    stripBlanks (s ++ t) = stripBlanks s ++ stripBlanks t := by
  simp [stripBlanks]

/-- Stripping a stripped text changes nothing. -/
@[simp] theorem stripBlanks_stripBlanks (text : Text) :
    stripBlanks (stripBlanks text) = stripBlanks text := by
  simp [stripBlanks]

/-- A text of blanks trims to nothing. -/
theorem trim_eq_nil {text : Text} (h : ∀ c ∈ text, isBlank c) : trim text = [] := by
  have dropped : (text ++ []).dropWhile isBlank = [] := by
    rw [List.dropWhile_append_of_pos h, List.dropWhile_nil]
  rw [List.append_nil] at dropped
  simp [trim, dropped]

end Text

end Calculator
