import Calculator.Proofs.Numerals
import Calculator.Proofs.Readings
import Calculator.Proofs.Seams

/-!
# Runs and pieces

A text is a row of longest stretches: names, numerals, and single characters
that are neither letter nor digit.  Each of them is one piece, and the text
behind it is cut into pieces as if it stood alone.

* `run_induction`, `name_induction` — a text is a name, a numeral or a mark, and a text;
* `lex_append` — two texts that no run reaches across are cut into pieces apart;
* `lex_name_append`, `lex_numeral_append`, `lex_mark_cons`, `lex_stray_cons` — the
  first piece of a text, by the kind of its first run.
-/

namespace Calculator

namespace Text

/-! ## Stretches -/

/-- A text that starts with a character of a kind starts with a longest stretch of that kind. -/
theorem exists_stretch {p : Char → Bool} {c : Char} (hc : p c) (text : Text) :
    ∃ stretch rest, c :: text = stretch ++ rest ∧ stretch ≠ [] ∧ stretch.all p ∧
      ∀ b ∈ rest.head?, p b = false := by
  refine ⟨(c :: text).takeWhile p, (c :: text).dropWhile p,
    List.takeWhile_append_dropWhile.symm, ?_, List.all_takeWhile, fun b hb => ?_⟩
  · simp [hc]
  · have hhead := List.head?_dropWhile_not p (c :: text)
    rw [Option.mem_def.1 hb] at hhead
    simpa using hhead

/-- Every text is empty, or a name, a numeral or a mark and then a text that does not continue
it. -/
@[elab_as_elim]
theorem run_induction {motive : Text → Prop} (nil : motive [])
    (name : ∀ x rest, isIdentifier x → (∀ c ∈ rest.head?, c.isAlpha = false) →
      motive rest → motive (x ++ rest))
    (numeral : ∀ digits rest, isNumeral digits → (∀ c ∈ rest.head?, c.isDigit = false) →
      motive rest → motive (digits ++ rest))
    (mark : ∀ c rest, c.isAlpha = false → c.isDigit = false → motive rest → motive (c :: rest))
    (text : Text) : motive text := by
  induction hlength : text.length using Nat.strong_induction_on generalizing text with
  | h n ih =>
      cases text with
      | nil => exact nil
      | cons c text =>
          have hshorter : ∀ {stretch rest : Text}, c :: text = stretch ++ rest → stretch ≠ [] →
              motive rest := by
            intro stretch rest hsplit hne
            have hpos := List.length_pos_of_ne_nil hne
            have htotal := congrArg List.length hsplit
            rw [List.length_append] at htotal
            exact ih rest.length (by omega) rest rfl
          by_cases halpha : c.isAlpha
          · obtain ⟨x, rest, hsplit, hne, hall, hrest⟩ := exists_stretch halpha text
            rw [hsplit]
            exact name x rest (by simp [isIdentifier, hne, hall]) hrest (hshorter hsplit hne)
          · by_cases hdigit : c.isDigit
            · obtain ⟨digits, rest, hsplit, hne, hall, hrest⟩ := exists_stretch hdigit text
              rw [hsplit]
              exact numeral digits rest (by simp [isNumeral, hne, hall]) hrest
                (hshorter hsplit hne)
            · have hsplit : c :: text = [c] ++ text := rfl
              exact mark c text (by simpa using halpha) (by simpa using hdigit)
                (hshorter hsplit (by simp))

theorem isDigit_of_mem_numeral {digits : Text} (h : isNumeral digits) {c : Char}
    (hc : c ∈ digits) : c.isDigit :=
  List.all_eq_true.1 (Bool.and_eq_true_iff.1 h).2 c hc

/-- Every text is empty, or a name and then a text that does not continue it, or a character that
is no letter and then a text. -/
@[elab_as_elim]
theorem name_induction {motive : Text → Prop} (nil : motive [])
    (name : ∀ x rest, isIdentifier x → (∀ c ∈ rest.head?, c.isAlpha = false) →
      motive rest → motive (x ++ rest))
    (other : ∀ c rest, c.isAlpha = false → motive rest → motive (c :: rest))
    (text : Text) : motive text := by
  induction text using run_induction with
  | nil => exact nil
  | name x rest hx hrest ih => exact name x rest hx hrest ih
  | numeral digits rest hdigits _ ih =>
      have hletter : ∀ c ∈ digits, c.isAlpha = false := fun c hc =>
        not_isAlpha_of_isDigit (isDigit_of_mem_numeral hdigits hc)
      clear hdigits
      induction digits with
      | nil => exact ih
      | cons c digits ihdigits =>
          exact other c (digits ++ rest) (hletter c List.mem_cons_self)
            (ihdigits fun b hb => hletter b (List.mem_cons_of_mem c hb))
  | mark c rest halpha _ ih => exact other c rest halpha ih

end Text

/-! ## The first piece -/

open Text Token

/-- Two texts that no run reaches across are cut into pieces apart. -/
theorem lex_append {front back : Text}
    (h : ∀ a ∈ front.getLast?, ∀ b ∈ back.head?, joined a b = false) :
    lex (front ++ back) = lex front ++ lex back := by
  rw [lex, runs, List.splitBy_append h, List.filterMap_append]
  rfl

/-- A single run is a single piece. -/
theorem lex_run {run : Text} (hne : run ≠ []) (h : run.IsChain fun a b => joined a b) :
    lex run = (Piece.ofRun? run).toList := by
  rw [lex, runs, List.splitBy_of_isChain hne h]
  cases hpiece : Piece.ofRun? run <;> simp [hpiece]

theorem lex_name {x : Text} (hx : isIdentifier x) : lex x = [.token (.identifier x)] := by
  have hraw : (Token.identifier x).Raw := hx
  have hread := Token.Raw.ofRun?_render hraw
  rw [Token.render] at hread
  rw [lex_run (isIdentifier_iff.1 hx).1 hraw.render_isChain, hread]
  rfl

theorem ofRun?_numeral {digits : Text} (h : digits.isNumeral) :
    Piece.ofRun? digits = some (.token (.number (Decimal.value digits))) := by
  obtain ⟨hne, hall⟩ := Decimal.isNumeral_iff.1 h
  obtain ⟨c, rest, rfl⟩ := List.exists_cons_of_ne_nil hne
  have hc : c.isDigit := hall c List.mem_cons_self
  simp [Piece.ofRun?, not_isAlpha_of_isDigit hc, hc]

theorem isChain_numeral {digits : Text} (h : digits.isNumeral) :
    digits.IsChain fun a b => joined a b := by
  refine (List.pairwise_of_forall_mem_list fun a ha b hb => ?_).isChain
  simp [joined, isDigit_of_mem_numeral h ha, isDigit_of_mem_numeral h hb]

theorem lex_numeral {digits : Text} (h : digits.isNumeral) :
    lex digits = [.token (.number (Decimal.value digits))] := by
  rw [lex_run (Decimal.isNumeral_iff.1 h).1 (isChain_numeral h), ofRun?_numeral h]
  rfl

/-- A name in front is the first piece. -/
theorem lex_name_append {x rest : Text} (hx : x.isIdentifier)
    (hrest : ∀ c ∈ rest.head?, c.isAlpha = false) :
    lex (x ++ rest) = .token (.identifier x) :: lex rest := by
  have hletters := (isIdentifier_iff.1 hx).2
  rw [lex_append, lex_name hx]
  · rfl
  · intro a ha b hb
    simp [joined, hrest b hb, not_isDigit_of_isAlpha (hletters a (List.mem_of_mem_getLast? ha))]

/-- So is a numeral, and it counts its value. -/
theorem lex_numeral_append {digits rest : Text} (hdigits : digits.isNumeral)
    (hrest : ∀ c ∈ rest.head?, c.isDigit = false) :
    lex (digits ++ rest) = .token (.number (Decimal.value digits)) :: lex rest := by
  rw [lex_append, lex_numeral hdigits]
  · rfl
  · intro a ha b hb
    have hdigit := isDigit_of_mem_numeral hdigits (List.mem_of_mem_getLast? ha)
    simp [joined, hrest b hb, not_isAlpha_of_isDigit hdigit]

/-- So is the mark of a token. -/
theorem lex_mark_cons {c : Char} {mark : Token} (h : ofMark? c = some mark) (rest : Text) :
    lex (c :: rest) = .token mark :: lex rest :=
  lex_append_mark h [] rest

/-- Any other character is a stray one. -/
theorem lex_stray_cons {c : Char} (halpha : c.isAlpha = false) (hdigit : c.isDigit = false)
    (hmark : ofMark? c = none) (rest : Text) : lex (c :: rest) = .stray c :: lex rest := by
  have hpiece : Piece.ofRun? [c] = some (.stray c) := by
    simp [Piece.ofRun?, halpha, hdigit, hmark]
  have hcut := Text.runs_append_cons halpha hdigit [] rest
  rw [lex, ← List.nil_append (c :: rest), hcut]
  simp [lex, hpiece, Text.runs]

end Calculator
