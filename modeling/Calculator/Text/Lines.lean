import Calculator.Text.Basic

/-!
# Lines

A line ends at a line feed, and one carriage return right before that line feed
belongs to the ending.  What follows the last line feed is a line only if there
is anything, and it is taken as it stands: a carriage return at its end is part
of it.  The same rule cuts a text into lines and a stream of bytes, so it is
written once for both.

* `linesBy_append_feed` — a line feed between two sources keeps their lines
  apart: the second one is cut as if it stood alone;
* `linesBy_nil` — an empty source has no line;
* `cut_induction` — a source is a stretch, or a stretch cut off from a shorter source;
* `splitOn_comm` — cutting at a mark and rewriting.
-/

namespace Calculator

variable {α : Type} [BEq α]

/-- A line whose end was seen, without the carriage return that may precede it. -/
def dropReturn (carriage : α) (line : List α) : List α :=
  if line.getLast? == some carriage then line.dropLast else line

/-- The lines among the stretches between the line feeds.  Every stretch but the
last has seen its end; the last one counts only if it holds anything. -/
def closeLines (carriage : α) : List (List α) → List (List α)
  | [] => []
  | [unfinished] => if unfinished.isEmpty then [] else [unfinished]
  | line :: following => dropReturn carriage line :: closeLines carriage following

/-- The lines of a source, given what stands for line feed and carriage return. -/
def linesBy (feed carriage : α) (source : List α) : List (List α) :=
  closeLines carriage (source.splitOn feed)

/-- The lines of a text. -/
def Text.lines (text : Text) : List Text :=
  linesBy '\n' '\r' text

/-- The lines of a stream of bytes, not yet read as text. -/
def byteLines (bytes : List UInt8) : List (List UInt8) :=
  linesBy 0x0A 0x0D bytes

@[simp] theorem linesBy_nil (feed carriage : α) : linesBy feed carriage [] = [] := rfl

/-- Stretches that are followed by others have all seen their end. -/
theorem closeLines_append (carriage : α) (closed : List (List α)) {following : List (List α)}
    (h : following ≠ []) :
    closeLines carriage (closed ++ following) =
      closed.map (dropReturn carriage) ++ closeLines carriage following := by
  induction closed with
  | nil => rfl
  | cons line closed ih =>
    obtain ⟨next, more, hrest⟩ := List.exists_cons_of_ne_nil
      (fun empty => h (List.append_eq_nil_iff.1 empty).2 : closed ++ following ≠ [])
    rw [hrest] at ih
    simp [hrest, closeLines, ih]

/-- A line feed between two sources keeps their lines apart. -/
theorem linesBy_append_feed [LawfulBEq α] (feed carriage : α) (first second : List α) :
    linesBy feed carriage (first ++ feed :: second) =
      (first.splitOn feed).map (dropReturn carriage) ++ linesBy feed carriage second := by
  rw [linesBy, List.splitOn_append_cons_self, closeLines_append _ _ (List.splitOn_ne_nil _ _)]
  rfl

/-- **A source is cut at its first mark**, if it has one: it is one stretch without the mark, or a
stretch and the mark with a source behind them. -/
theorem cut_induction {β : Type} {motive : List β → Prop} (mark : β)
    (stretch : ∀ stretch, mark ∉ stretch → motive stretch)
    (cut : ∀ front back, mark ∉ front → motive back → motive (front ++ mark :: back))
    (source : List β) : motive source := by
  -- What follows the first mark is shorter.
  induction hlength : source.length using Nat.strongRecOn generalizing source with
  | ind k ih =>
    by_cases hmem : mark ∈ source
    · obtain ⟨front, back, rfl, hfront⟩ := List.eq_append_cons_of_mem hmem
      have hback : back.length < k := by
        simp only [List.length_append, List.length_cons] at hlength
        omega
      exact cut front back hfront (ih _ hback _ rfl)
    · exact stretch source hmem

/-- **Cutting at a mark and rewriting** may change places, if what is rewritten is cut at another
mark in just the same places. -/
theorem splitOn_comm {β : Type} [LawfulBEq α] [BEq β] [LawfulBEq β] {rewritten : List α → List β}
    {mark : α} {mark' : β}
    (hcut : ∀ front back,
      rewritten (front ++ mark :: back) = rewritten front ++ mark' :: rewritten back)
    (hnone : ∀ stretch, mark ∉ stretch → mark' ∉ rewritten stretch) (source : List α) :
    (rewritten source).splitOn mark' = (source.splitOn mark).map rewritten := by
  have hstretch : ∀ stretch, mark ∉ stretch →
      (rewritten stretch).splitOn mark' = (stretch.splitOn mark).map rewritten := by
    intro stretch hmem
    rw [List.splitOn_eq_singleton hmem, List.splitOn_eq_singleton (hnone stretch hmem)]
    rfl
  induction source using cut_induction mark with
  | stretch stretch hmem => exact hstretch stretch hmem
  | cut front back hfront ih =>
      rw [hcut, List.splitOn_append_cons_self, List.splitOn_append_cons_self, hstretch front hfront,
        ih, List.map_append]

/-- The one return before a feed goes with it; any other return stays. -/
example : Text.lines ['a', '\r', '\n', '\r', '\r', '\n', '\n', 'b', '\r'] =
    [['a'], ['\r'], [], ['b', '\r']] := by decide

end Calculator
