import Calculator.Sign
import Mathlib.Data.List.SplitBy

/-!
# A collapsed text

Collapsing lays the characters of a text in front of one another from the
right, and a sign that meets a sign merges with it.  So a collapsed text has no
two signs side by side, and a text that has none is collapsed already.

* `collapse_isChain` — no two signs of a collapsed text are neighbours;
* `collapse_eq_self` — such a text is left as it is;
* `collapse_append_of_no_sign` — a stretch without signs is left as it is, in
  front of any text.
-/

namespace Calculator.Text

/-- Both of two neighbours are signs. -/
def bothSigns (a b : Char) : Bool :=
  (Sign.ofSymbol? a).isSome && (Sign.ofSymbol? b).isSome

theorem putChar_of_sign {c : Char} {s : Sign} (h : Sign.ofSymbol? c = some s) (text : Text) :
    putChar c text = putSign s text := by
  simp [putChar, h]

theorem collapse_symbol_cons (s : Sign) (text : Text) :
    collapse (s.symbol :: text) = putSign s (collapse text) := by
  rw [collapse_cons, putChar_of_sign (Sign.ofSymbol?_symbol s)]

@[simp] theorem putSign_symbol_cons (s t : Sign) (text : Text) :
    putSign s (t.symbol :: text) = (s.mul t).symbol :: text := by
  simp [putSign, leadingSign?]

/-- A sign in front of anything else stays. -/
theorem putSign_of_head {text : Text} (h : ∀ c ∈ text.head?, Sign.ofSymbol? c = none)
    (s : Sign) : putSign s text = s.symbol :: text := by
  cases text with
  | nil => rfl
  | cons c text =>
      have hc : Sign.ofSymbol? c = none := h c rfl
      simp [putSign, leadingSign?, hc]

/-- A text either starts with a sign or its first character is none. -/
theorem leading_sign_or_none (text : Text) :
    (∃ s after, text = Sign.symbol s :: after) ∨
      ∀ c ∈ text.head?, Sign.ofSymbol? c = none := by
  cases text with
  | nil => exact Or.inr (by simp)
  | cons c text =>
      cases hc : Sign.ofSymbol? c with
      | none => exact Or.inr (by simp [hc])
      | some s => exact Or.inl ⟨s, text, by rw [Sign.ofSymbol?_eq_some_iff.1 hc]⟩

theorem putSign_isChain (s : Sign) {text : Text}
    (h : text.IsChain fun a b => bothSigns a b = false) :
    (putSign s text).IsChain fun a b => bothSigns a b = false := by
  rcases leading_sign_or_none text with ⟨t, after, rfl⟩ | hhead
  · rw [putSign_symbol_cons]
    rw [List.isChain_cons] at h ⊢
    refine ⟨fun b hb => ?_, h.2⟩
    have hnext := h.1 b hb
    simpa [bothSigns] using hnext
  · rw [putSign_of_head hhead, List.isChain_cons]
    refine ⟨fun b hb => ?_, h⟩
    simp [bothSigns, hhead b hb]

/-- In a collapsed text no two signs stand side by side. -/
theorem collapse_isChain (text : Text) :
    (collapse text).IsChain fun a b => bothSigns a b = false := by
  induction text with
  | nil => exact List.IsChain.nil
  | cons c text ih =>
      cases hc : Sign.ofSymbol? c with
      | some s =>
          rw [collapse_cons, putChar_of_sign hc]
          exact putSign_isChain s ih
      | none =>
          rw [collapse_of_not_sign hc, List.isChain_cons]
          exact ⟨fun b _ => by simp [bothSigns, hc], ih⟩

/-- A text without neighbouring signs is collapsed already. -/
theorem collapse_eq_self {text : Text}
    (h : text.IsChain fun a b => bothSigns a b = false) : collapse text = text := by
  induction text with
  | nil => rfl
  | cons c text ih =>
      rw [List.isChain_cons] at h
      have htail : collapse text = text := ih h.2
      cases hc : Sign.ofSymbol? c with
      | none => rw [collapse_of_not_sign hc, htail]
      | some s =>
          have hhead : ∀ b ∈ text.head?, Sign.ofSymbol? b = none := by
            intro b hb
            have hnext := h.1 b hb
            simpa [bothSigns, hc] using hnext
          rw [collapse_cons, putChar_of_sign hc, htail, putSign_of_head hhead,
            Sign.ofSymbol?_eq_some_iff.1 hc]

/-- A stretch without signs is left as it is. -/
theorem collapse_append_of_no_sign {front : Text}
    (h : ∀ c ∈ front, Sign.ofSymbol? c = none) (back : Text) :
    collapse (front ++ back) = front ++ collapse back := by
  induction front with
  | nil => rfl
  | cons c front ih =>
      rw [List.cons_append, collapse_of_not_sign (h c List.mem_cons_self),
        ih fun b hb => h b (List.mem_cons_of_mem c hb)]
      rfl

end Calculator.Text
