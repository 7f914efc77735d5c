import Calculator.Proofs.SignRuns
import Calculator.Token.Canonical
import Calculator.Token.Lexer

/-!
# How tokens are spelled

A **raw** token is one as the text is cut into it: a name of letters, a number
without a sign, or a mark.  Two raw tokens are **parted** when they stay two
after they are written without a gap, and a row of raw tokens in which all
neighbours are parted falls apart again exactly where it was put together.

* `ofRun?_eq_token` — what a run that was read as a token looks like;
* `RawRow.runs_spell`, `RawRow.lex_spell` — a raw row that is written is cut into its own tokens.
-/

namespace Calculator

namespace Text

/-- What joining hands on from the first character of a run holds of the whole run. -/
theorem all_of_joined {p : Char → Bool} (hp : ∀ a b, p a → joined a b → p b) {c : Char}
    {rest : Text} (h : (c :: rest).IsChain fun a b => joined a b) (hc : p c) :
    (c :: rest).all p := by
  induction rest generalizing c with
  | nil => simp [hc]
  | cons d rest ih =>
      rw [List.isChain_cons_cons] at h
      have htail := ih h.2 (hp c d hc h.1)
      rw [List.all_cons, hc, htail]
      rfl

/-- A run of letters is a name, of digits a numeral, and any other run is one character. -/
theorem run_cases {c : Char} {rest : Text} (h : (c :: rest).IsChain fun a b => joined a b) :
    (c.isAlpha ∧ isIdentifier (c :: rest)) ∨ (c.isDigit ∧ isNumeral (c :: rest)) ∨
      (c.isAlpha = false ∧ c.isDigit = false ∧ rest = []) := by
  have hletters : ∀ a b : Char, a.isAlpha → joined a b → b.isAlpha := by
    intro a b ha hjoined
    simpa [joined, ha, not_isDigit_of_isAlpha ha] using hjoined
  have hdigits : ∀ a b : Char, a.isDigit → joined a b → b.isDigit := by
    intro a b ha hjoined
    simpa [joined, ha, not_isAlpha_of_isDigit ha] using hjoined
  by_cases halpha : c.isAlpha
  · have hall := all_of_joined hletters h halpha
    exact Or.inl ⟨halpha, by simpa [isIdentifier] using hall⟩
  · by_cases hdigit : c.isDigit
    · have hall := all_of_joined hdigits h hdigit
      exact Or.inr (Or.inl ⟨hdigit, by simpa [isNumeral] using hall⟩)
    · refine Or.inr (Or.inr ⟨by simpa using halpha, by simpa using hdigit, ?_⟩)
      cases rest with
      | nil => rfl
      | cons d rest =>
          rw [List.isChain_cons_cons] at h
          simp [joined, halpha, hdigit] at h

end Text

namespace Token

/-- A token as the text is cut into it: names have letters, and a number has no sign. -/
def Raw : Token → Prop
  | identifier name => name.isIdentifier
  | number value => 0 ≤ value
  | _ => True

/-- The tokens that are written with a sign in front. -/
def startsWithSign : Token → Bool
  | number value => value < 0
  | token => token.isSign

/-- Two tokens that stay two when they are written without a gap. -/
structure Parted (s t : Token) : Prop where
  /-- They are not two names. -/
  names : ∀ x y, ¬(s = identifier x ∧ t = identifier y)
  /-- They are not two numbers. -/
  numbers : ∀ m n, ¬(s = number m ∧ t = number n)
  /-- A sign does not meet a sign. -/
  signs : ¬(s.isSign ∧ t.startsWithSign)

/-- A row of raw tokens that stay apart. -/
structure RawRow (row : List Token) : Prop where
  raw : ∀ t ∈ row, t.Raw
  parted : row.IsChain Parted

/-- A row of tokens written without a gap. -/
def spell (row : List Token) : Text :=
  row.flatMap render

/-- Every character of a raw token is a letter of a name, a digit of a number or a mark. -/
theorem Raw.char_cases {t : Token} (h : t.Raw) {c : Char} (hc : c ∈ t.render) :
    (c.isAlpha ∧ ∃ x, t = identifier x) ∨ (c.isDigit ∧ ∃ n, t = number n) ∨
      (t.render = [c] ∧ ofMark? c = some t) := by
  cases t with
  | identifier name =>
      have hall : name.all Char.isAlpha := (Bool.and_eq_true_iff.1 h).2
      exact Or.inl ⟨List.all_eq_true.1 hall c hc, name, rfl⟩
  | number value =>
      cases value with
      | negSucc n => exact absurd h (by simp [Raw])
      | ofNat n =>
          have hdigit : c.isDigit :=
            Nat.isDigit_of_mem_toDigits (b := 10) (n := n) (by decide) (by decide) hc
          exact Or.inr (Or.inl ⟨hdigit, _, rfl⟩)
  | operator op =>
      have hsymbol : c = op.symbol := by simpa [render] using hc
      exact Or.inr (Or.inr ⟨by rw [hsymbol]; rfl, by rw [hsymbol]; exact ofMark?_symbol op⟩)
  | leftParen =>
      have hmark : c = '(' := by simpa [render] using hc
      exact Or.inr (Or.inr ⟨by rw [hmark]; rfl, by rw [hmark]; rfl⟩)
  | rightParen =>
      have hmark : c = ')' := by simpa [render] using hc
      exact Or.inr (Or.inr ⟨by rw [hmark]; rfl, by rw [hmark]; rfl⟩)

/-- The marks are the parentheses and the symbols of the operators. -/
theorem mark_cases {c : Char} {t : Token} (h : ofMark? c = some t) :
    (c = '(' ∧ t = leftParen) ∨ (c = ')' ∧ t = rightParen) ∨
      ∃ op, c = Operator.symbol op ∧ t = operator op := by
  unfold ofMark? at h
  split at h
  · exact Or.inl ⟨rfl, (Option.some.inj h).symm⟩
  · exact Or.inr (Or.inl ⟨rfl, (Option.some.inj h).symm⟩)
  · obtain ⟨op, hop, rfl⟩ := Option.map_eq_some_iff.1 h
    exact Or.inr (Or.inr ⟨op, Operator.ofSymbol?_eq_some_iff.1 hop, rfl⟩)

theorem mark_class {c : Char} {t : Token} (h : ofMark? c = some t) :
    c.isAlpha = false ∧ c.isDigit = false ∧ Text.isBlank c = false := by
  rcases mark_cases h with ⟨rfl, -⟩ | ⟨rfl, -⟩ | ⟨op, rfl, -⟩
  · decide
  · decide
  · cases op <;> decide

theorem mark_raw {c : Char} {t : Token} (h : ofMark? c = some t) : t.Raw := by
  rcases mark_cases h with ⟨-, rfl⟩ | ⟨-, rfl⟩ | ⟨op, -, rfl⟩ <;> trivial

/-- A mark is a sign if the token it writes is one. -/
theorem mark_isSign {c : Char} {t : Token} (h : ofMark? c = some t) :
    t.isSign = (Sign.ofSymbol? c).isSome ∧ t.startsWithSign = t.isSign := by
  rcases mark_cases h with ⟨rfl, rfl⟩ | ⟨rfl, rfl⟩ | ⟨op, rfl, rfl⟩
  · exact ⟨rfl, rfl⟩
  · exact ⟨rfl, rfl⟩
  · cases op <;> exact ⟨rfl, rfl⟩

end Token

namespace Text

theorem sign_class {c : Char} {s : Sign} (h : Sign.ofSymbol? c = some s) :
    c.isAlpha = false ∧ c.isDigit = false ∧ isBlank c = false := by
  rw [Sign.ofSymbol?_eq_some_iff.1 h]
  cases s <;> decide

theorem bothSigns_of_joined {a b : Char} (h : joined a b) : bothSigns a b = false := by
  cases ha : Sign.ofSymbol? a with
  | none => simp [bothSigns, ha]
  | some s =>
      obtain ⟨halpha, hdigit, -⟩ := sign_class ha
      simp [joined, halpha, hdigit] at h

end Text

namespace Token

/-- The characters of a raw token are all joined. -/
theorem Raw.render_isChain {t : Token} (h : t.Raw) :
    t.render.IsChain fun a b => Text.joined a b := by
  cases t with
  | identifier name =>
      refine (List.pairwise_of_forall_mem_list fun a ha b hb => ?_).isChain
      have hall := List.all_eq_true.1 (Bool.and_eq_true_iff.1 h).2
      simp [Text.joined, hall a ha, hall b hb]
  | number value =>
      cases value with
      | negSucc n => exact absurd h (by simp [Raw])
      | ofNat n =>
          refine (List.pairwise_of_forall_mem_list fun a ha b hb => ?_).isChain
          have hall : ∀ c ∈ Nat.toDigits 10 n, c.isDigit := fun c hc =>
            Nat.isDigit_of_mem_toDigits (by decide) (by decide) hc
          simp [Text.joined, hall a ha, hall b hb]
  | operator op => exact List.IsChain.singleton _
  | leftParen => exact List.IsChain.singleton _
  | rightParen => exact List.IsChain.singleton _

theorem Raw.render_ne_nil {t : Token} (h : t.Raw) : t.render ≠ [] := by
  cases t with
  | identifier name =>
      intro hnil
      have hname : name = [] := hnil
      simp [Raw, Text.isIdentifier, hname] at h
  | number value => exact Decimal.render_ne_nil value
  | operator op => simp [render]
  | leftParen => simp [render]
  | rightParen => simp [render]

theorem Raw.not_isBlank {t : Token} (h : t.Raw) {c : Char} (hc : c ∈ t.render) :
    Text.isBlank c = false := by
  rcases h.char_cases hc with ⟨halpha, -⟩ | ⟨hdigit, -⟩ | ⟨-, hmark⟩
  · exact Text.not_isBlank_of_isAlpha halpha
  · exact Text.not_isBlank_of_isDigit hdigit
  · exact (mark_class hmark).2.2

/-- Characters of parted raw tokens are not joined. -/
theorem Parted.not_joined {s t : Token} (h : Parted s t) (hs : s.Raw) (ht : t.Raw) {a b : Char}
    (ha : a ∈ s.render) (hb : b ∈ t.render) : Text.joined a b = false := by
  rcases hs.char_cases ha with ⟨halpha, x, rfl⟩ | ⟨hdigit, m, rfl⟩ | ⟨-, hmark⟩
  · rcases ht.char_cases hb with ⟨-, y, rfl⟩ | ⟨hbdigit, -⟩ | ⟨-, hbmark⟩
    · exact absurd ⟨rfl, rfl⟩ (h.names x y)
    · simp [Text.joined, Text.not_isDigit_of_isAlpha halpha, Text.not_isAlpha_of_isDigit hbdigit]
    · simp [Text.joined, mark_class hbmark]
  · rcases ht.char_cases hb with ⟨hbalpha, -⟩ | ⟨-, n, rfl⟩ | ⟨-, hbmark⟩
    · simp [Text.joined, Text.not_isAlpha_of_isDigit hdigit, Text.not_isDigit_of_isAlpha hbalpha]
    · exact absurd ⟨rfl, rfl⟩ (h.numbers m n)
    · simp [Text.joined, mark_class hbmark]
  · simp [Text.joined, mark_class hmark]

/-- A sign among the characters of a raw token is the whole token. -/
theorem Raw.isSign_of_mem {t : Token} (h : t.Raw) {c : Char} (hc : c ∈ t.render)
    (hsign : (Sign.ofSymbol? c).isSome) : t.isSign := by
  obtain ⟨s, hs⟩ := Option.isSome_iff_exists.1 hsign
  obtain ⟨halpha, hdigit⟩ := Text.sign_class hs
  rcases h.char_cases hc with ⟨hletter, -⟩ | ⟨hnumeral, -⟩ | ⟨-, hmark⟩
  · simp [halpha] at hletter
  · simp [hdigit] at hnumeral
  · rw [(mark_isSign hmark).1]
    exact hsign

/-- Characters of parted raw tokens are not both signs. -/
theorem Parted.not_bothSigns {s t : Token} (h : Parted s t) (hs : s.Raw) (ht : t.Raw)
    {a b : Char} (ha : a ∈ s.render) (hb : b ∈ t.render) : Text.bothSigns a b = false := by
  by_contra hboth
  rw [Bool.not_eq_false] at hboth
  have hsigns : (Sign.ofSymbol? a).isSome ∧ (Sign.ofSymbol? b).isSome :=
    Bool.and_eq_true_iff.1 hboth
  have hstart : t.startsWithSign := by
    have hsign := ht.isSign_of_mem hb hsigns.2
    cases t <;> simp_all [isSign, startsWithSign]
  exact h.signs ⟨hs.isSign_of_mem ha hsigns.1, hstart⟩

theorem RawRow.nil_notMem {row : List Token} (h : RawRow row) : [] ∉ row.map render := by
  intro hmem
  obtain ⟨t, ht, hempty⟩ := List.mem_map.1 hmem
  exact (h.raw t ht).render_ne_nil hempty

/-- The tokens of a raw row are the runs of what it is written as. -/
theorem RawRow.runs_spell {row : List Token} (h : RawRow row) :
    (spell row).runs = row.map render := by
  have hinside : ∀ run ∈ row.map render, run.IsChain fun a b => Text.joined a b := by
    intro run hrun
    obtain ⟨t, ht, rfl⟩ := List.mem_map.1 hrun
    exact (h.raw t ht).render_isChain
  have hbetween : (row.map render).IsChain fun r q =>
      ∃ hr hq, Text.joined (r.getLast hr) (q.head hq) = false := by
    rw [List.isChain_map]
    refine h.parted.imp_of_mem_imp fun s t hs ht hst => ?_
    refine ⟨(h.raw s hs).render_ne_nil, (h.raw t ht).render_ne_nil, ?_⟩
    exact hst.not_joined (h.raw s hs) (h.raw t ht) (List.getLast_mem _) (List.head_mem _)
  rw [spell, List.flatMap_def]
  exact List.splitBy_flatten h.nil_notMem hinside hbetween

/-- Raw tokens have no blanks when they are written. -/
theorem stripBlanks_spell {row : List Token} (h : ∀ t ∈ row, t.Raw) :
    (spell row).stripBlanks = spell row := by
  refine List.filter_eq_self.2 fun c hc => ?_
  obtain ⟨t, ht, hct⟩ := List.mem_flatMap.1 hc
  simp [(h t ht).not_isBlank hct]

/-- A raw row has no two signs side by side when it is written. -/
theorem RawRow.collapse_spell {row : List Token} (h : RawRow row) :
    (spell row).collapse = spell row := by
  refine Text.collapse_eq_self ?_
  rw [spell, List.flatMap_def, List.isChain_flatten h.nil_notMem, List.isChain_map]
  constructor
  · intro run hrun
    obtain ⟨t, ht, rfl⟩ := List.mem_map.1 hrun
    exact (h.raw t ht).render_isChain.imp fun a b hab => Text.bothSigns_of_joined hab
  · refine h.parted.imp_of_mem_imp fun s t hs ht hst a ha b hb => ?_
    exact hst.not_bothSigns (h.raw s hs) (h.raw t ht) (List.mem_of_mem_getLast? ha)
      (List.mem_of_mem_head? hb)

/-- A raw token that is written is read as itself. -/
theorem Raw.ofRun?_render {t : Token} (h : t.Raw) :
    Piece.ofRun? t.render = some (.token t) := by
  cases t with
  | identifier name =>
      cases name with
      | nil => simp [Raw, Text.isIdentifier] at h
      | cons c rest =>
          have hc : c.isAlpha := by
            simp only [Raw, Text.isIdentifier, List.all_cons, Bool.and_eq_true] at h
            exact h.2.1
          simp [render, Piece.ofRun?, hc]
  | number value =>
      cases value with
      | negSucc n => exact absurd h (by simp [Raw])
      | ofNat n =>
          cases hdigits : Nat.toDigits 10 n with
          | nil => exact absurd hdigits Nat.toDigits_ne_nil
          | cons c rest =>
              have hc : c.isDigit := Nat.isDigit_of_mem_toDigits (b := 10) (n := n)
                (by decide) (by decide) (by simp [hdigits])
              have hvalue : Decimal.value (c :: rest) = n := by
                rw [← hdigits, Decimal.value_toDigits]
              simp [render, Decimal.render, hdigits, Piece.ofRun?, hc,
                Text.not_isAlpha_of_isDigit hc, hvalue]
  | operator op => cases op <;> rfl
  | leftParen => rfl
  | rightParen => rfl

/-- A raw row that is written is cut into its own tokens. -/
theorem RawRow.lex_spell {row : List Token} (h : RawRow row) :
    lex (spell row) = row.map .token := by
  rw [lex, h.runs_spell, List.filterMap_map]
  have hread : ∀ t ∈ row, (Piece.ofRun? ∘ render) t = (some ∘ Piece.token) t :=
    fun t ht => (h.raw t ht).ofRun?_render
  rw [List.filterMap_congr hread, List.filterMap_eq_map]

/-- A text that collapses to the spelling of a raw row has the tokens that attaching the minus
signs of the row leaves. -/
theorem RawRow.tokenize_of_collapse {row : List Token} (h : RawRow row) {text : Text}
    (htext : text.stripBlanks.collapse = spell row) :
    tokenize text = .ok (attachMinus true row) := by
  rw [tokenize_eq_ok_iff]
  refine ⟨row, ?_, rfl⟩
  rw [htext, h.lex_spell]

/-- What a run that is read as a token looks like. -/
theorem ofRun?_eq_token {run : Text} (hrun : run.IsChain fun a b => Text.joined a b)
    {t : Token} (h : Piece.ofRun? run = some (.token t)) :
    (run.isIdentifier ∧ t = identifier run) ∨
      (run.isNumeral ∧ t = number (Decimal.value run)) ∨ ∃ c, run = [c] ∧ ofMark? c = some t := by
  cases run with
  | nil => cases h
  | cons c rest =>
      rcases Text.run_cases hrun with ⟨halpha, hname⟩ | ⟨hdigit, hnumeral⟩ | ⟨halpha, hdigit, rfl⟩
      · refine Or.inl ⟨hname, ?_⟩
        simp only [Piece.ofRun?, halpha, if_true, Option.some.injEq, Piece.token.injEq] at h
        exact h.symm
      · refine Or.inr (Or.inl ⟨hnumeral, ?_⟩)
        have halpha : c.isAlpha = false := Text.not_isAlpha_of_isDigit hdigit
        simp only [Piece.ofRun?, halpha, hdigit, Bool.false_eq_true, if_false, if_true,
          Option.some.injEq, Piece.token.injEq] at h
        exact h.symm
      · refine Or.inr (Or.inr ⟨c, rfl, ?_⟩)
        simp only [Piece.ofRun?, halpha, hdigit, Bool.false_eq_true, if_false] at h
        cases hmark : ofMark? c with
        | none => simp [hmark] at h
        | some mark => simpa [hmark] using h

end Token

end Calculator
