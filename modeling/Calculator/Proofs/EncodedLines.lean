import Calculator.Text.Lines
import Calculator.Text.Utf8
import Mathlib.Data.List.Basic

/-!
# The lines of a text and the lines of its bytes

In UTF-8 a character below 128 is written as one byte, its own code, and no byte
below 128 is a part of any other character.  A line feed and a carriage return
are such characters.  So the bytes of a text are cut into lines at the same
places as the text itself, and lose the same carriage returns: it makes no
difference whether a text is first cut into lines and then written, or the other
way round.

* `mem_utf8EncodeChar_iff` — a small byte stands for a character of its own;
* `encode_splitOn`, `encode_dropReturn` — the two halves of cutting into lines;
* `byteLines_encode` — the lines of the bytes are the bytes of the lines.
-/

namespace Calculator

namespace Utf8

theorem toNat_ofNat_of_large {n : Nat} (hlow : 128 ≤ n) (hhigh : n < 256) :
    128 ≤ (UInt8.ofNat n).toNat := by
  rw [UInt8.toNat_ofNat']
  omega

/-- A small byte is the code of the character that it is a part of. -/
theorem toNat_of_mem_utf8EncodeChar {c : Char} {b : UInt8} (hb : b.toNat < 128)
    (h : b ∈ String.utf8EncodeChar c) : c.toNat = b.toNat := by
  unfold String.utf8EncodeChar at h
  simp only at h
  split at h
  · next hsmall =>
    have heq : b = UInt8.ofNat c.val.toNat := by simpa using h
    have hcode : b.toNat = c.val.toNat % 256 := by rw [heq, UInt8.toNat_ofNat']
    change c.val.toNat = b.toNat
    omega
  · -- In a longer sequence all bytes are large.
    have hlarge : 128 ≤ b.toNat := by
      split at h
      · simp only [List.mem_cons, List.not_mem_nil, or_false] at h
        rcases h with rfl | rfl <;> exact toNat_ofNat_of_large (by omega) (by omega)
      · split at h
        · simp only [List.mem_cons, List.not_mem_nil, or_false] at h
          rcases h with rfl | rfl | rfl <;> exact toNat_ofNat_of_large (by omega) (by omega)
        · simp only [List.mem_cons, List.not_mem_nil, or_false] at h
          rcases h with rfl | rfl | rfl | rfl <;>
            exact toNat_ofNat_of_large (by omega) (by omega)
    omega

/-- **A small byte stands for a character of its own.** -/
theorem mem_utf8EncodeChar_iff {a : Char} {b : UInt8} (hb : b.toNat < 128)
    (ha : String.utf8EncodeChar a = [b]) {c : Char} : b ∈ String.utf8EncodeChar c ↔ c = a := by
  constructor
  · intro h
    have hc : c.toNat = b.toNat := toNat_of_mem_utf8EncodeChar hb h
    have hself : a.toNat = b.toNat :=
      toNat_of_mem_utf8EncodeChar hb (ha ▸ List.mem_singleton_self b)
    exact Char.toNat_inj.1 (hc.trans hself.symm)
  · rintro rfl
    rw [ha]
    exact List.mem_singleton_self b

theorem mem_encode_iff {a : Char} {b : UInt8} (hb : b.toNat < 128)
    (ha : String.utf8EncodeChar a = [b]) {text : Text} : b ∈ encode text ↔ a ∈ text := by
  rw [encode, List.mem_flatMap]
  simp only [mem_utf8EncodeChar_iff hb ha, exists_eq_right]

theorem encode_append (s t : Text) : encode (s ++ t) = encode s ++ encode t :=
  List.flatMap_append

@[simp] theorem encode_nil : encode [] = [] := rfl

theorem encode_singleton (c : Char) : encode [c] = String.utf8EncodeChar c := by
  simp [encode]

theorem encode_eq_nil_iff {text : Text} : encode text = [] ↔ text = [] := by
  cases text with
  | nil => simp
  | cons c rest => simp [encode]

/-- The last byte is small exactly if the last character is that byte alone. -/
theorem getLast?_encode_iff {a : Char} {b : UInt8} (hb : b.toNat < 128)
    (ha : String.utf8EncodeChar a = [b]) {text : Text} :
    (encode text).getLast? = some b ↔ text.getLast? = some a := by
  rcases List.eq_nil_or_concat text with rfl | ⟨front, c, rfl⟩
  · simp
  · have hbytes : (encode (front ++ [c])).getLast? = (String.utf8EncodeChar c).getLast? := by
      have hne : String.utf8EncodeChar c ≠ [] := String.utf8EncodeChar_ne_nil
      rw [encode_append, encode_singleton, List.getLast?_append,
        List.getLast?_eq_some_getLast hne, Option.some_or]
    rw [List.concat_eq_append, hbytes, List.getLast?_concat, Option.some_inj]
    constructor
    · intro h
      exact (mem_utf8EncodeChar_iff hb ha).1 (List.mem_of_mem_getLast? h)
    · rintro rfl
      rw [ha]
      rfl

/-- **Writing and cutting at the line feeds** may change places. -/
theorem encode_splitOn (text : Text) :
    (encode text).splitOn 0x0A = (text.splitOn '\n').map encode := by
  have hfeed : String.utf8EncodeChar '\n' = [0x0A] := by decide
  have hsmall : (0x0A : UInt8).toNat < 128 := by decide
  have hcut : ∀ front back,
      encode (front ++ '\n' :: back) = encode front ++ 0x0A :: encode back := by
    intro front back
    rw [List.append_cons, encode_append, encode_append, encode_singleton, hfeed]
    simp
  exact splitOn_comm hcut (fun stretch => mt (mem_encode_iff hsmall hfeed).1) text

/-- **Writing and dropping a return at the end** may change places. -/
theorem encode_dropReturn (line : Text) :
    dropReturn 0x0D (encode line) = encode (dropReturn '\r' line) := by
  have hreturn : String.utf8EncodeChar '\r' = [0x0D] := by decide
  have hlast : (encode line).getLast? = some 0x0D ↔ line.getLast? = some '\r' :=
    getLast?_encode_iff (by decide) hreturn
  rw [dropReturn, dropReturn]
  by_cases h : line.getLast? = some '\r'
  · have hline : line.dropLast ++ ['\r'] = line := List.dropLast_append_getLast? _ h
    have hbytes : encode line = encode line.dropLast ++ [0x0D] := by
      rw [← hreturn, ← encode_singleton, ← encode_append, hline]
    rw [if_pos (by simpa using hlast.2 h), if_pos (by simpa using h), hbytes,
      List.dropLast_concat]
  · rw [if_neg (by simpa using mt hlast.1 h), if_neg (by simpa using h)]

theorem closeLines_map_encode (stretches : List Text) :
    closeLines 0x0D (stretches.map encode) = (closeLines '\r' stretches).map encode := by
  induction stretches with
  | nil => rfl
  | cons line following ih =>
      cases following with
      | nil =>
          by_cases h : line = []
          · simp [closeLines, h]
          · simp [closeLines, h, encode_eq_nil_iff]
      | cons next more =>
          calc closeLines 0x0D ((line :: next :: more).map encode)
              = dropReturn 0x0D (encode line) :: closeLines 0x0D ((next :: more).map encode) := rfl
            _ = encode (dropReturn '\r' line) :: (closeLines '\r' (next :: more)).map encode := by
                rw [encode_dropReturn, ih]

/-- **The lines of the bytes are the bytes of the lines.** -/
theorem byteLines_encode (text : Text) : byteLines (encode text) = text.lines.map encode := by
  rw [byteLines, linesBy, encode_splitOn, closeLines_map_encode, Text.lines, linesBy]

end Utf8

end Calculator
