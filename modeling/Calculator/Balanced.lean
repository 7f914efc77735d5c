import Mathlib.Data.List.Infix

/-!
# Balance

A row is balanced in two marks, an opening and a closing one, when it holds as
many of the one as of the other and no front part of it holds more closing than
opening marks.  It is the same notion for the characters of a text and for
tokens.

* `balanced_iff_inits` — balance can be decided;
* `balanced_filterMap_iff` — balance is a matter of the marks alone.
-/

namespace Calculator

variable {α : Type} [DecidableEq α]

/-- Every closing mark closes an opening one before it, and none stays open. -/
structure Balanced (opening closing : α) (row : List α) : Prop where
  /-- No front part closes more than it opens. -/
  front : ∀ part rest, part ++ rest = row → part.count closing ≤ part.count opening
  /-- As many marks close as open. -/
  total : row.count closing = row.count opening

/-- A row has finitely many front parts, so its balance can be decided. -/
theorem balanced_iff_inits {opening closing : α} {row : List α} :
    Balanced opening closing row ↔
      (∀ part ∈ row.inits, part.count closing ≤ part.count opening) ∧
        row.count closing = row.count opening := by
  constructor
  · intro h
    refine ⟨fun part hpart => ?_, h.total⟩
    obtain ⟨rest, hsplit⟩ := (List.mem_inits part row).1 hpart
    exact h.front part rest hsplit
  · intro h
    exact ⟨fun part rest hsplit => h.1 part ((List.mem_inits part row).2 ⟨rest, hsplit⟩), h.2⟩

instance {opening closing : α} {row : List α} : Decidable (Balanced opening closing row) :=
  decidable_of_iff _ balanced_iff_inits.symm

/-- Balance does not depend on what else stands in a row, nor on how its marks are written. -/
theorem balanced_filterMap_iff {β : Type} [DecidableEq β] {f : α → Option β} {opening closing : α}
    {opening' closing' : β} (hopen : ∀ x, f x = some opening' ↔ x = opening)
    (hclose : ∀ x, f x = some closing' ↔ x = closing) {row : List α} :
    Balanced opening' closing' (row.filterMap f) ↔ Balanced opening closing row := by
  have hcount : ∀ {mark : α} {mark' : β}, (∀ x, f x = some mark' ↔ x = mark) →
      ∀ part : List α, (part.filterMap f).count mark' = part.count mark := by
    intro mark mark' hmark part
    rw [List.count_filterMap, List.count]
    refine List.countP_congr fun x _ => ?_
    simp [hmark]
  constructor
  · intro h
    refine ⟨fun part rest hsplit => ?_, ?_⟩
    · have hfront := h.front (part.filterMap f) (rest.filterMap f)
        (by rw [← List.filterMap_append, hsplit])
      rwa [hcount hopen, hcount hclose] at hfront
    · have htotal := h.total
      rwa [hcount hopen, hcount hclose] at htotal
  · intro h
    refine ⟨fun part rest hsplit => ?_, ?_⟩
    · obtain ⟨part, rest, rfl, rfl, rfl⟩ := List.filterMap_eq_append_iff.1 hsplit.symm
      rw [hcount hopen, hcount hclose]
      exact h.front part rest rfl
    · rw [hcount hopen, hcount hclose]
      exact h.total

end Calculator
