import Calculator.Decimal
import Mathlib.Data.Nat.Digits.Defs

/-!
# Numerals and the integers they write

In a numeral each digit counts ten times as much as the one behind it.  Zeros in
front count nothing, so an integer has many numerals; the one without needless
zeros is the one in which it is written.  An integer may be written with a sign
in front: a minus sign, if it is negative or zero, and a plus sign or none
otherwise.

* `value_eq_placeValue` — reading from the left adds up the places;
* `literal?_eq_some_iff` — what is read as a literal, and as which integer;
* `toDigits_value` — the digits of a numeral's value are the numeral without its
  leading zeros.
-/

namespace Calculator.Decimal

/-- The sum of the digits, each by its place: the last one counts once, and any
other ten times as much as the one behind it. -/
def placeValue (digits : Text) : Nat :=
  Nat.ofDigits 10 (digits.reverse.map fun c => c.toNat - '0'.toNat)

/-- The ways to write an integer: a numeral, with one sign in front or none. -/
inductive Spells : Text → Int → Prop
  | unsigned {digits : Text} (h : digits.isNumeral) : Spells digits (placeValue digits)
  | plus {digits : Text} (h : digits.isNumeral) : Spells ('+' :: digits) (placeValue digits)
  | minus {digits : Text} (h : digits.isNumeral) :
      Spells ('-' :: digits) (-(placeValue digits : Int))

/-- A numeral without its leading zeros; of zeros alone the last one stays. -/
def shorten (digits : Text) : Text :=
  if digits.all (· == '0') then ['0'] else digits.dropWhile (· == '0')

theorem isNumeral_iff {digits : Text} :
    digits.isNumeral ↔ digits ≠ [] ∧ ∀ c ∈ digits, c.isDigit := by
  simp [Text.isNumeral, List.isEmpty_eq_false_iff]

/-! ## The value of a numeral -/

theorem value_cons (c : Char) (digits : Text) :
    value (c :: digits) = 10 ^ digits.length * (c.toNat - '0'.toNat) + value digits := by
  rw [value, Nat.ofDigitChars_cons, Nat.ofDigitChars_eq_ofDigitChars_zero, Nat.mul_zero,
    Nat.zero_add]
  rfl

/-- **Reading from the left adds up the places.** -/
theorem value_eq_placeValue (digits : Text) : value digits = placeValue digits := by
  induction digits with
  | nil => rfl
  | cons c digits ih =>
      rw [value_cons, ih, placeValue, placeValue, List.reverse_cons, List.map_append,
        Nat.ofDigits_append, List.length_map, List.length_reverse, Nat.add_comm]
      rfl

/-- A zero in front counts nothing. -/
theorem value_zero_cons (digits : Text) : value ('0' :: digits) = value digits := by
  rw [value_cons]
  simp

/-- A numeral counts nothing only if it is all zeros. -/
theorem value_eq_zero_iff {digits : Text} (h : ∀ c ∈ digits, c.isDigit) :
    value digits = 0 ↔ digits.all (· == '0') := by
  induction digits with
  | nil => simp [value]
  | cons c digits ih =>
      obtain ⟨hc, hdigits⟩ := List.forall_mem_cons.1 h
      obtain ⟨hlow, -⟩ := Char.isDigit_iff_toNat.1 hc
      have hfirst : c.toNat - '0'.toNat = 0 ↔ c = '0' := by
        rw [← Char.toNat_inj]
        omega
      rw [value_cons, Nat.add_eq_zero_iff, ih hdigits, Nat.mul_eq_zero, hfirst]
      simp

/-! ## Literals -/

theorem magnitude?_eq_some_iff {text : Text} {n : Nat} :
    magnitude? text = some n ↔ text.isNumeral ∧ placeValue text = n := by
  simp [magnitude?, value_eq_placeValue]

/-- **What is read as a literal**, and as which integer. -/
theorem literal?_eq_some_iff {text : Text} {n : Int} :
    literal? text = some n ↔ Spells text n := by
  have hread : ∀ {digits : Text} {k : Int},
      (do let m ← magnitude? digits; pure (m : Int)) = some k →
        digits.isNumeral ∧ (placeValue digits : Int) = k := by
    intro digits k h
    obtain ⟨m, hm, hk⟩ := Option.bind_eq_some_iff.1 h
    obtain ⟨hdigits, rfl⟩ := magnitude?_eq_some_iff.1 hm
    exact ⟨hdigits, Option.some.inj hk⟩
  constructor
  · intro h
    unfold literal? at h
    split at h <;> obtain ⟨k, hk, rfl⟩ := Option.map_eq_some_iff.1 h <;>
      obtain ⟨hdigits, rfl⟩ := hread hk
    · exact .minus hdigits
    · exact .plus hdigits
    · exact .unsigned hdigits
  · intro h
    cases h with
    | unsigned hdigits =>
        obtain ⟨hne, hall⟩ := isNumeral_iff.1 hdigits
        obtain ⟨c, rest, rfl⟩ := List.exists_cons_of_ne_nil hne
        rw [literal?_of_isDigit (hall c List.mem_cons_self),
          magnitude?_eq_some_iff.2 ⟨hdigits, rfl⟩]
        rfl
    | plus hdigits => simp [literal?, magnitude?_eq_some_iff.2 ⟨hdigits, rfl⟩]
    | minus hdigits => simp [literal?, magnitude?_eq_some_iff.2 ⟨hdigits, rfl⟩]

/-! ## The digits of a value -/

theorem digit_lt_ten {c : Char} (h : c.isDigit) : c.toNat - '0'.toNat < 10 := by
  have hhigh : c.toNat ≤ 57 := (Char.isDigit_iff_toNat.1 h).2
  change c.toNat - 48 < 10
  omega

/-- A digit is written as itself. -/
theorem toDigits_of_isDigit {c : Char} (h : c.isDigit) :
    Nat.toDigits 10 (c.toNat - '0'.toNat) = [c] := by
  have hlow : 48 ≤ c.toNat := (Char.isDigit_iff_toNat.1 h).1
  rw [Nat.toDigits_of_lt_base (digit_lt_ten h), List.singleton_inj, ← Char.toNat_inj,
    Nat.toNat_digitChar_of_lt_ten (digit_lt_ten h)]
  change 48 + (c.toNat - 48) = c.toNat
  omega

/-- More digits behind those of a number, unless it is zero, are the digits of what is read
from there on. -/
theorem toDigits_append {n : Nat} (hn : 0 < n) {digits : Text} (h : ∀ c ∈ digits, c.isDigit) :
    Nat.toDigits 10 n ++ digits = Nat.toDigits 10 (Nat.ofDigitChars 10 digits n) := by
  induction digits generalizing n with
  | nil => rw [List.append_nil, Nat.ofDigitChars_nil]
  | cons c digits ih =>
      obtain ⟨hc, hdigits⟩ := List.forall_mem_cons.1 h
      have hnext : 0 < 10 * n + (c.toNat - '0'.toNat) := by omega
      calc Nat.toDigits 10 n ++ c :: digits
          = (Nat.toDigits 10 n ++ Nat.toDigits 10 (c.toNat - '0'.toNat)) ++ digits := by
            rw [toDigits_of_isDigit hc, List.append_assoc, List.singleton_append]
        _ = Nat.toDigits 10 (10 * n + (c.toNat - '0'.toNat)) ++ digits := by
            rw [Nat.toDigits_append_toDigits (by decide) hn (digit_lt_ten hc)]
        _ = Nat.toDigits 10 (Nat.ofDigitChars 10 (c :: digits) n) := by
            rw [ih hnext hdigits, Nat.ofDigitChars_cons]

/-- Digits that do not start with a zero are those of their value. -/
theorem toDigits_value_of_head {c : Char} (hc : c ≠ '0') {digits : Text}
    (h : ∀ d ∈ c :: digits, d.isDigit) : Nat.toDigits 10 (value (c :: digits)) = c :: digits := by
  obtain ⟨hdigit, hdigits⟩ := List.forall_mem_cons.1 h
  have hpos : 0 < c.toNat - '0'.toNat := by
    have hlow : 48 ≤ c.toNat := (Char.isDigit_iff_toNat.1 hdigit).1
    have hne : c.toNat ≠ 48 := fun heq => hc (Char.toNat_inj.1 heq)
    change 0 < c.toNat - 48
    omega
  rw [value, Nat.ofDigitChars_cons, Nat.mul_zero, Nat.zero_add, ← toDigits_append hpos hdigits,
    toDigits_of_isDigit hdigit, List.singleton_append]

/-- **The digits of a numeral's value** are the numeral without its leading zeros. -/
theorem toDigits_value {digits : Text} (h : ∀ c ∈ digits, c.isDigit) :
    Nat.toDigits 10 (value digits) = shorten digits := by
  induction digits with
  | nil => rfl
  | cons c digits ih =>
      obtain ⟨-, hdigits⟩ := List.forall_mem_cons.1 h
      by_cases hc : c = '0'
      · subst hc
        rw [value_zero_cons, ih hdigits, shorten, shorten, List.all_cons,
          List.dropWhile_cons_of_pos (by rfl)]
        simp
      · rw [toDigits_value_of_head hc h, shorten, List.dropWhile_cons_of_neg (by simpa using hc)]
        simp [hc]

/-- The value of a numeral is written without its leading zeros. -/
theorem render_value {digits : Text} (h : digits.isNumeral) :
    render (value digits : Int) = shorten digits :=
  toDigits_value (isNumeral_iff.1 h).2

example : shorten ['0', '0', '7', '0'] = ['7', '0'] := by decide

example : shorten ['0', '0'] = ['0'] := by decide

end Calculator.Decimal
