import Calculator.Proofs.Alphabet

/-!
# Reading by the longest match

What can be read as one piece is a name, a numeral, the mark of a token, or a
character that no token starts with.  A scan takes the longest piece in front of
a text, and goes on behind it.  So it stops only between two characters that are
not joined: if they were joined, one more character could be read as well.

That leaves one way to scan a text, and it is the row of its runs.  They are the
whole text again when they are put together, and two texts are scanned one after
the other if no run reaches across the seam.

* `Reads.isChain`, `Reads.extend` — joined characters are read together, and only
  they are;
* `takes_iff` — the longest piece is the one that ends where nothing is joined;
* `scans_iff` — the pieces of a text, with the runs they are read from, are its one
  scan;
* `Reads.slices_between` — what is read in the middle of a text.
-/

namespace Calculator

open Token Text

/-! ## What can be read -/

/-- The texts that can be read as one piece. -/
inductive Reads : Text → Piece → Prop
  | name {x : Text} (h : x.isIdentifier) : Reads x (.token (identifier x))
  | numeral {digits : Text} (h : digits.isNumeral) :
      Reads digits (.token (number (Decimal.placeValue digits)))
  | operator (op : Operator) : Reads [op.symbol] (.token (operator op))
  | leftParen : Reads ['('] (.token leftParen)
  | rightParen : Reads [')'] (.token rightParen)
  | stray {c : Char} (h : startsToken c = false) : Reads [c] (.stray c)

/-- What a scan takes from the front of a text: a piece, if nothing longer can be read there. -/
structure Takes (text slice : Text) (piece : Piece) (rest : Text) : Prop where
  reads : Reads slice piece
  split : text = slice ++ rest
  longest : ∀ longer other, longer <+: text → Reads longer other → longer.length ≤ slice.length

/-- The scans of a text: pieces, each with the part of the text that it is read from. -/
inductive Scans : Text → List (Text × Piece) → Prop
  | nil : Scans [] []
  | cons {text slice rest : Text} {piece : Piece} {row : List (Text × Piece)}
      (first : Takes text slice piece rest) (others : Scans rest row) :
      Scans text ((slice, piece) :: row)

/-- The pieces of a text, each with the run that it is read from. -/
def slices (text : Text) : List (Text × Piece) :=
  text.runs.filterMap fun run => (Piece.ofRun? run).map fun piece => (run, piece)

/-- No run of characters reaches across the seam of two texts. -/
def Text.Apart (front back : Text) : Prop :=
  ∀ a ∈ front.getLast?, ∀ b ∈ back.head?, joined a b = false

/-- No token starts with a blank. -/
theorem startsToken_of_isBlank {c : Char} (h : isBlank c) : startsToken c = false := by
  by_contra hstarts
  simp only [startsToken, Bool.not_eq_false, Bool.or_eq_true] at hstarts
  rcases hstarts with (halpha | hdigit) | hmark
  · rw [not_isBlank_of_isAlpha halpha] at h
    cases h
  · rw [not_isBlank_of_isDigit hdigit] at h
    cases h
  · simp only [List.contains_iff_mem, List.mem_cons, List.not_mem_nil, or_false] at hmark
    rcases hmark with rfl | rfl | rfl | rfl | rfl | rfl <;> cases h

/-- A character that is neither letter nor digit can be read alone. -/
theorem exists_reads_singleton {c : Char} (halpha : c.isAlpha = false)
    (hdigit : c.isDigit = false) : ∃ piece, Reads [c] piece := by
  cases hmark : ofMark? c with
  | some mark =>
      rcases mark_cases hmark with ⟨rfl, -⟩ | ⟨rfl, -⟩ | ⟨op, rfl, -⟩
      · exact ⟨_, .leftParen⟩
      · exact ⟨_, .rightParen⟩
      · exact ⟨_, .operator op⟩
  | none =>
      refine ⟨.stray c, .stray ?_⟩
      simp only [startsToken, halpha, hdigit, ofMark?_eq_none_iff.1 hmark, Bool.or_self]

namespace Reads

variable {slice : Text} {piece : Piece}

theorem ne_nil (h : Reads slice piece) : slice ≠ [] := by
  cases h with
  | name h => exact (isIdentifier_iff.1 h).1
  | numeral h => exact (Decimal.isNumeral_iff.1 h).1
  | _ => simp

/-- **Only joined characters are read together.** -/
theorem isChain (h : Reads slice piece) : slice.IsChain fun a b => joined a b := by
  cases h with
  | name h =>
      refine (List.pairwise_of_forall_mem_list fun a ha b hb => ?_).isChain
      have hletters := (isIdentifier_iff.1 h).2
      simp [joined, hletters a ha, hletters b hb]
  | numeral h => exact isChain_numeral h
  | _ => exact List.isChain_singleton _

/-- What is read is what a run is read as. -/
theorem ofRun? (h : Reads slice piece) : Piece.ofRun? slice = some piece := by
  cases h with
  | name h =>
      obtain ⟨c, rest, rfl, hc⟩ := exists_cons_of_isIdentifier h
      simp [Piece.ofRun?, hc]
  | numeral h => rw [ofRun?_numeral h, Decimal.value_eq_placeValue]
  | operator op => exact ofRun?_mark (ofMark?_symbol op)
  | leftParen => rfl
  | rightParen => rfl
  | @stray c h =>
      simp only [startsToken, Bool.or_eq_false_iff] at h
      simp [Piece.ofRun?, h.1.1, h.1.2, ofMark?_eq_none_iff.2 h.2]

/-- **A joined character can be read as well.** -/
theorem extend (h : Reads slice piece) {a b : Char} (ha : a ∈ slice.getLast?) (hab : joined a b) :
    ∃ other, Reads (slice ++ [b]) other := by
  have hmem : a ∈ slice := List.mem_of_mem_getLast? ha
  cases h with
  | name h =>
      have hletter := (isIdentifier_iff.1 h).2 a hmem
      have hb : b.isAlpha := by simpa [joined, hletter, not_isDigit_of_isAlpha hletter] using hab
      refine ⟨_, .name (isIdentifier_iff.2 ⟨by simp, fun c hc => ?_⟩)⟩
      rcases List.mem_append.1 hc with hold | hnew
      · exact (isIdentifier_iff.1 h).2 c hold
      · rwa [List.mem_singleton.1 hnew]
  | numeral h =>
      have hdigit := isDigit_of_mem_numeral h hmem
      have hb : b.isDigit := by simpa [joined, hdigit, not_isAlpha_of_isDigit hdigit] using hab
      refine ⟨_, .numeral (Decimal.isNumeral_iff.2 ⟨by simp, fun c hc => ?_⟩)⟩
      rcases List.mem_append.1 hc with hold | hnew
      · exact isDigit_of_mem_numeral h hold
      · rwa [List.mem_singleton.1 hnew]
  | operator op =>
      obtain ⟨halpha, hdigit, -⟩ := mark_class (ofMark?_symbol op)
      obtain rfl := List.mem_singleton.1 hmem
      simp [joined, halpha, hdigit] at hab
  | leftParen =>
      obtain rfl := List.mem_singleton.1 hmem
      simp [joined] at hab
  | rightParen =>
      obtain rfl := List.mem_singleton.1 hmem
      simp [joined] at hab
  | stray h =>
      obtain rfl := List.mem_singleton.1 hmem
      simp only [startsToken, Bool.or_eq_false_iff] at h
      simp [joined, h.1.1, h.1.2] at hab

end Reads

/-- **The longest piece ends where nothing is joined**, and only it does. -/
theorem takes_iff {text slice rest : Text} {piece : Piece} :
    Takes text slice piece rest ↔
      text = slice ++ rest ∧ Reads slice piece ∧ slice.Apart rest := by
  constructor
  · intro h
    refine ⟨h.split, h.reads, fun a ha b hb => ?_⟩
    by_contra hjoined
    rw [Bool.not_eq_false] at hjoined
    obtain ⟨other, hother⟩ := h.reads.extend ha hjoined
    obtain ⟨back, hback⟩ := List.head?_eq_some_iff.1 hb
    have hfront : slice ++ [b] <+: text := ⟨back, by rw [h.split, hback]; simp⟩
    have hlength := h.longest _ other hfront hother
    simp at hlength
  · rintro ⟨rfl, hreads, hapart⟩
    refine ⟨hreads, rfl, fun longer other hfront hother => ?_⟩
    by_contra hlonger
    -- A longer piece would join the last character of the slice to the first one behind it.
    obtain ⟨more, rfl⟩ : slice <+: longer :=
      List.prefix_of_prefix_length_le (List.prefix_append slice rest) hfront (by omega)
    obtain ⟨front, a, rfl⟩ : ∃ front a, slice = front ++ [a] :=
      ⟨_, _, (List.dropLast_append_getLast hreads.ne_nil).symm⟩
    obtain ⟨b, more, rfl⟩ : ∃ b tail, more = b :: tail := by
      refine List.exists_cons_of_ne_nil ?_
      rintro rfl
      simp at hlonger
    have hjoined : joined a b := by
      have hchain := hother.isChain
      rw [List.append_assoc, List.singleton_append] at hchain
      exact (List.isChain_append_cons_cons.1 hchain).2.1
    have hhead : rest.head? = some b := by
      rw [List.prefix_append_right_inj] at hfront
      obtain ⟨back, hback⟩ := hfront
      rw [← hback]
      rfl
    simp [hapart a (by simp) b hhead] at hjoined

/-! ## The runs of a text -/

theorem map_snd_slices (text : Text) : (slices text).map Prod.snd = lex text := by
  rw [slices, lex, List.map_filterMap]
  refine List.filterMap_congr fun run _ => ?_
  cases Piece.ofRun? run <;> rfl

theorem map_fst_slices (text : Text) : (slices text).map Prod.fst = text.runs := by
  have hkept : ∀ run ∈ text.runs,
      ((Piece.ofRun? run).map fun piece => (run, piece)).map Prod.fst = some run := by
    intro run hrun
    obtain ⟨piece, hpiece⟩ := Option.isSome_iff_exists.1
      (ofRun?_isSome (List.ne_nil_of_mem_splitBy hrun))
    rw [hpiece]
    rfl
  rw [slices, List.map_filterMap, List.filterMap_congr hkept, List.filterMap_some]

/-- **The runs are the whole text again.** -/
theorem flatMap_fst_slices (text : Text) : (slices text).flatMap Prod.fst = text := by
  rw [List.flatMap_def, map_fst_slices, runs, List.flatten_splitBy]

theorem slices_append {front back : Text} (h : front.Apart back) :
    slices (front ++ back) = slices front ++ slices back := by
  rw [slices, runs, List.splitBy_append h, List.filterMap_append]
  rfl

/-- What can be read as one piece is one run. -/
theorem Reads.slices_self {slice : Text} {piece : Piece} (h : Reads slice piece) :
    slices slice = [(slice, piece)] := by
  rw [slices, runs, List.splitBy_of_isChain h.ne_nil h.isChain]
  simp [h.ofRun?]

/-- **What is read in the middle of a text**, where nothing is joined to it on either side. -/
theorem Reads.slices_between {front slice back : Text} {piece : Piece} (h : Reads slice piece)
    (hfront : front.Apart slice) (hback : slice.Apart back) :
    slices (front ++ slice ++ back) = slices front ++ (slice, piece) :: slices back := by
  have hwhole : front.Apart (slice ++ back) := by
    intro a ha b hb
    rw [List.head?_append_of_ne_nil _ h.ne_nil] at hb
    exact hfront a ha b hb
  rw [List.append_assoc, slices_append hwhole, slices_append hback, h.slices_self,
    List.singleton_append]

/-! ## Longest runs -/

/-- If joined characters are of one kind, nothing is joined to a longest run of that kind. -/
theorem apart_of_longestRun {kind : Char → Bool} (hkind : ∀ a b, joined a b → kind a = kind b)
    {front run back : Text} (h : LongestRun kind front run back) :
    front.Apart run ∧ run.Apart back := by
  constructor
  · intro a ha b hb
    by_contra hjoined
    have hsame := hkind a b (by simpa using hjoined)
    rw [h.starts a ha, h.all b (List.mem_of_mem_head? hb)] at hsame
    cases hsame
  · intro a ha b hb
    by_contra hjoined
    have hsame := hkind a b (by simpa using hjoined)
    rw [h.ends b hb, h.all a (List.mem_of_mem_getLast? ha)] at hsame
    cases hsame

theorem isAlpha_eq_of_joined (a b : Char) (h : joined a b) : a.isAlpha = b.isAlpha := by
  simp only [joined, Bool.or_eq_true, Bool.and_eq_true] at h
  rcases h with ⟨ha, hb⟩ | ⟨ha, hb⟩
  · rw [ha, hb]
  · rw [not_isAlpha_of_isDigit ha, not_isAlpha_of_isDigit hb]

theorem isDigit_eq_of_joined (a b : Char) (h : joined a b) : a.isDigit = b.isDigit := by
  simp only [joined, Bool.or_eq_true, Bool.and_eq_true] at h
  rcases h with ⟨ha, hb⟩ | ⟨ha, hb⟩
  · rw [not_isDigit_of_isAlpha ha, not_isDigit_of_isAlpha hb]
  · rw [ha, hb]

/-- Nothing is joined to a character that is neither letter nor digit. -/
theorem apart_singleton {c : Char} (halpha : c.isAlpha = false) (hdigit : c.isDigit = false)
    (text : Text) : text.Apart [c] ∧ Apart [c] text := by
  constructor
  · intro a _ b hb
    obtain rfl : c = b := by simpa using hb
    simp [joined, halpha, hdigit]
  · intro a ha b _
    obtain rfl : c = a := by simpa using ha
    simp [joined, halpha, hdigit]

theorem Reads.slices_mark {c : Char} {piece : Piece} (h : Reads [c] piece)
    (halpha : c.isAlpha = false) (hdigit : c.isDigit = false) (front back : Text) :
    slices (front ++ [c] ++ back) = slices front ++ ([c], piece) :: slices back :=
  h.slices_between (apart_singleton halpha hdigit front).1 (apart_singleton halpha hdigit back).2

/-! ## Scans -/

/-- A scan takes the runs of a text one by one. -/
theorem Scans.eq_slices {text : Text} {row : List (Text × Piece)} (h : Scans text row) :
    row = slices text := by
  induction h with
  | nil => rfl
  | @cons text slice rest piece row first others ih =>
      obtain ⟨rfl, hreads, hapart⟩ := takes_iff.1 first
      rw [slices_append hapart, hreads.slices_self, ih, List.singleton_append]

theorem Reads.scans_append {slice rest : Text} {piece : Piece} (h : Reads slice piece)
    (hapart : slice.Apart rest) (hrest : Scans rest (slices rest)) :
    Scans (slice ++ rest) (slices (slice ++ rest)) := by
  rw [slices_append hapart, h.slices_self, List.singleton_append]
  exact .cons (takes_iff.2 ⟨rfl, h, hapart⟩) hrest

/-- And every text can be scanned. -/
theorem scans_slices (text : Text) : Scans text (slices text) := by
  induction text using run_induction with
  | nil => exact .nil
  | name x rest hx hrest ih =>
      obtain ⟨hne, hletters⟩ := isIdentifier_iff.1 hx
      have hrun : LongestRun Char.isAlpha [] x rest := ⟨hne, hletters, by simp, hrest⟩
      have hapart := (apart_of_longestRun isAlpha_eq_of_joined hrun).2
      exact (Reads.name hx).scans_append hapart ih
  | numeral digits rest hdigits hrest ih =>
      obtain ⟨hne, hall⟩ := Decimal.isNumeral_iff.1 hdigits
      have hrun : LongestRun Char.isDigit [] digits rest := ⟨hne, hall, by simp, hrest⟩
      have hapart := (apart_of_longestRun isDigit_eq_of_joined hrun).2
      exact (Reads.numeral hdigits).scans_append hapart ih
  | mark c rest halpha hdigit ih =>
      obtain ⟨piece, hpiece⟩ := exists_reads_singleton halpha hdigit
      exact hpiece.scans_append (apart_singleton halpha hdigit rest).2 ih

/-- **There is one scan of a text**, and it is the row of its runs. -/
theorem scans_iff {text : Text} {row : List (Text × Piece)} : Scans text row ↔ row = slices text :=
  ⟨Scans.eq_slices, fun h => h ▸ scans_slices text⟩

/-- **The pieces of a text are a partition of it.**  Put together again, the runs that they are read
from are the whole text, and they are what any scan by the longest match takes.  Each longest run of
letters is one name, each longest run of digits is one number and counts its decimal value, each
symbol of an operator and each parenthesis is a token of its own, and any other character, blank or
not, is a stray piece of its own.  So two texts are read one after the other if the characters at
the seam are not both letters and not both digits. -/
theorem longest_match_is_partition (text : Text) :
    (slices text).map Prod.snd = lex text ∧
      (slices text).flatMap Prod.fst = text ∧
      (∀ row, Scans text row ↔ row = slices text) ∧
      (∀ front x back, text = front ++ x ++ back → LongestRun Char.isAlpha front x back →
        slices text = slices front ++ (x, .token (identifier x)) :: slices back) ∧
      (∀ front digits back, text = front ++ digits ++ back →
        LongestRun Char.isDigit front digits back → slices text = slices front ++
          (digits, .token (number (Decimal.placeValue digits))) :: slices back) ∧
      (∀ front op back, text = front ++ [Operator.symbol op] ++ back →
        slices text = slices front ++ ([op.symbol], .token (operator op)) :: slices back) ∧
      (∀ front back, text = front ++ ['('] ++ back →
        slices text = slices front ++ (['('], .token leftParen) :: slices back) ∧
      (∀ front back, text = front ++ [')'] ++ back →
        slices text = slices front ++ ([')'], .token rightParen) :: slices back) ∧
      (∀ front c back, text = front ++ [c] ++ back → isBlank c ∨ startsToken c = false →
        slices text = slices front ++ ([c], .stray c) :: slices back) ∧
      ∀ other, text.Apart other → slices (text ++ other) = slices text ++ slices other ∧
        lex (text ++ other) = lex text ++ lex other := by
  refine ⟨map_snd_slices text, flatMap_fst_slices text, fun row => scans_iff,
    ?_, ?_, ?_, ?_, ?_, ?_, fun other hapart => ⟨slices_append hapart, lex_append hapart⟩⟩
  · intro front x back htext hrun
    have hx : x.isIdentifier := isIdentifier_iff.2 ⟨hrun.ne_nil, hrun.all⟩
    obtain ⟨hfront, hback⟩ := apart_of_longestRun isAlpha_eq_of_joined hrun
    rw [htext, (Reads.name hx).slices_between hfront hback]
  · intro front digits back htext hrun
    have hdigits : digits.isNumeral := Decimal.isNumeral_iff.2 ⟨hrun.ne_nil, hrun.all⟩
    obtain ⟨hfront, hback⟩ := apart_of_longestRun isDigit_eq_of_joined hrun
    rw [htext, (Reads.numeral hdigits).slices_between hfront hback]
  · intro front op back htext
    obtain ⟨halpha, hdigit, -⟩ := mark_class (ofMark?_symbol op)
    rw [htext, (Reads.operator op).slices_mark halpha hdigit]
  · intro front back htext
    rw [htext, Reads.leftParen.slices_mark rfl rfl]
  · intro front back htext
    rw [htext, Reads.rightParen.slices_mark rfl rfl]
  · intro front c back htext hc
    have hstray : startsToken c = false := hc.elim startsToken_of_isBlank id
    have hclass := hstray
    simp only [startsToken, Bool.or_eq_false_iff] at hclass
    rw [htext, (Reads.stray hstray).slices_mark hclass.1.1 hclass.1.2]

/-- A name with digits right behind it, a blank, a mark, and a letter that is none of the ASCII
ones. -/
theorem longest_match_is_partition_mixed :
    slices "ab07 (\u00e9".toList =
        [(['a', 'b'], .token (identifier ['a', 'b'])), (['0', '7'], .token (number 7)),
          ([' '], .stray ' '), (['('], .token leftParen), (['\u00e9'], .stray '\u00e9')] ∧
      Text.Apart "ab".toList "07 (\u00e9".toList ∧
      lex ("ab".toList ++ "07 (\u00e9".toList) = lex "ab".toList ++ lex "07 (\u00e9".toList := by
  have hletters : LongestRun Char.isAlpha [] ['a', 'b'] "07 (\u00e9".toList :=
    ⟨by simp, by simp, by simp, by simp⟩
  have hdigits : LongestRun Char.isDigit [] ['0', '7'] " (\u00e9".toList :=
    ⟨by simp, by simp, by simp, by simp⟩
  have hname := (longest_match_is_partition "ab07 (\u00e9".toList).2.2.2.1 [] ['a', 'b']
    "07 (\u00e9".toList rfl hletters
  have hnumber := (longest_match_is_partition "07 (\u00e9".toList).2.2.2.2.1 [] ['0', '7']
    " (\u00e9".toList rfl hdigits
  have hblank := (longest_match_is_partition " (\u00e9".toList).2.2.2.2.2.2.2.2.1 [] ' '
    "(\u00e9".toList rfl (Or.inl (by decide))
  have hparen := (longest_match_is_partition "(\u00e9".toList).2.2.2.2.2.2.1 [] ['\u00e9'] rfl
  have hapart : Text.Apart "ab".toList "07 (\u00e9".toList := by
    intro a ha b hb
    obtain rfl : 'b' = a := by simpa using ha
    obtain rfl : '0' = b := by simpa using hb
    decide
  refine ⟨?_, hapart, ((longest_match_is_partition "ab".toList).2.2.2.2.2.2.2.2.2 _ hapart).2⟩
  rw [hname, hnumber, hblank, hparen]
  rfl

end Calculator
