import Calculator.Proofs.Pieces

/-!
# Other texts in the place of names

The names of a text are its longest stretches of letters.  A text is **sealed**
if nothing reaches across its two ends: it begins with no digit and no sign,
ends in none, and has neither blanks nor runs of signs to lose.  If every name
of a text gives way to a sealed one, everything else is read as before: no run
of signs grows or shrinks, no numeral is continued, and each of the new texts is
cut into pieces apart.

* `replaceNames_cons`, `replaceNames_name_append` — what gives way, and what stays;
* `collapse_replaceNames` — runs of signs do not notice it;
* `lex_replaceNames`, `pieces_replaceNames` — in the pieces, too, only names give way.
-/

namespace Calculator

namespace Text

/-! ## Names that give way -/

/-- The text cut so that each longest stretch of letters stays whole and any other character
stands alone. -/
def words (text : Text) : List Text :=
  text.splitBy fun a b => a.isAlpha && b.isAlpha

/-- The text with another one in the place of each of its names. -/
def replaceNames (f : Text → Text) (text : Text) : Text :=
  text.words.flatMap fun word => if word.isIdentifier then f word else word

variable {f : Text → Text}

@[simp] theorem replaceNames_nil (f : Text → Text) : replaceNames f [] = [] := rfl

/-- Any character but a letter stays. -/
theorem replaceNames_cons {c : Char} (hc : c.isAlpha = false) (f : Text → Text) (rest : Text) :
    replaceNames f (c :: rest) = c :: replaceNames f rest := by
  have hcut : words (c :: rest) = [c] :: words rest :=
    List.splitBy_append (l := [c]) (by simp [hc])
  have hname : isIdentifier [c] = false := by simp [isIdentifier, hc]
  simp [replaceNames, hcut, hname]

theorem replaceNames_append_of_no_letter {front : Text} (h : ∀ c ∈ front, c.isAlpha = false)
    (f : Text → Text) (back : Text) :
    replaceNames f (front ++ back) = front ++ replaceNames f back := by
  induction front with
  | nil => rfl
  | cons c front ih =>
      rw [List.cons_append, replaceNames_cons (h c List.mem_cons_self),
        ih fun b hb => h b (List.mem_cons_of_mem c hb), List.cons_append]

/-- A name gives way as a whole. -/
theorem replaceNames_name_append {x rest : Text} (hx : isIdentifier x)
    (hrest : ∀ c ∈ rest.head?, c.isAlpha = false) (f : Text → Text) :
    replaceNames f (x ++ rest) = f x ++ replaceNames f rest := by
  obtain ⟨hne, hletters⟩ := isIdentifier_iff.1 hx
  have hjoined : x.IsChain fun a b => a.isAlpha && b.isAlpha :=
    (List.pairwise_of_forall_mem_list fun a ha b hb => by
      simp [hletters a ha, hletters b hb]).isChain
  have hcut : words (x ++ rest) = x :: words rest := by
    rw [words, List.splitBy_append fun a _ b hb => by simp [hrest b hb],
      List.splitBy_of_isChain hne hjoined]
    rfl
  simp [replaceNames, hcut, hx]

theorem replaceNames_name {x : Text} (hx : isIdentifier x) (f : Text → Text) :
    replaceNames f x = f x := by
  have hwhole : replaceNames f (x ++ []) = f x ++ replaceNames f [] :=
    replaceNames_name_append hx (by simp) f
  simpa using hwhole

/-- Digits end a name, and are no part of it. -/
example : replaceNames (fun x => '(' :: x ++ [')']) "ab+2c1".toList = "(ab)+2(c)1".toList := by
  decide

/-- A text that does not start with a name starts as before. -/
theorem head?_replaceNames {text : Text} (h : ∀ c ∈ text.head?, c.isAlpha = false)
    (f : Text → Text) : (replaceNames f text).head? = text.head? := by
  cases text with
  | nil => rfl
  | cons c rest => rw [replaceNames_cons (h c rfl), List.head?_cons, List.head?_cons]

/-! ## Sealed texts -/

/-- A text that nothing reaches across, on either side. -/
structure Sealed (text : Text) : Prop where
  /-- There is something to reach across. -/
  ne_nil : text ≠ []
  /-- It has no blanks to lose. -/
  blankless : text.Blankless
  /-- It has no runs of signs to merge. -/
  collapsed : text.collapse = text
  /-- It continues nothing in front of it. -/
  starts : ∀ c ∈ text.head?, c.isDigit = false ∧ Sign.ofSymbol? c = none
  /-- Nothing behind continues it, except a name. -/
  ends : ∀ c ∈ text.getLast?, c.isDigit = false ∧ Sign.ofSymbol? c = none

/-- No sign reaches a sealed text from behind. -/
theorem Sealed.collapse_append {w : Text} (h : Sealed w) (back : Text) :
    collapse (w ++ back) = w ++ collapse back := by
  obtain ⟨front, last, hw⟩ : ∃ front last, w = front ++ [last] :=
    ⟨w.dropLast, w.getLast h.ne_nil, (List.dropLast_append_getLast h.ne_nil).symm⟩
  have hlast : Sign.ofSymbol? last = none := (h.ends last (by simp [hw])).2
  have hfront : collapse front = front := by
    have hcollapsed := h.collapsed
    rw [hw, collapse_append_cons hlast] at hcollapsed
    exact List.append_cancel_right hcollapsed
  rw [hw, List.append_assoc, List.singleton_append, collapse_append_cons hlast, hfront]
  simp

theorem sign_of_isAlpha {c : Char} (h : c.isAlpha) : Sign.ofSymbol? c = none := by
  cases hsign : Sign.ofSymbol? c with
  | none => rfl
  | some s => simp [(sign_class hsign).1] at h

/-- A name is sealed. -/
theorem sealed_name {x : Text} (hx : isIdentifier x) : Sealed x := by
  obtain ⟨hne, hletters⟩ := isIdentifier_iff.1 hx
  have hletter : ∀ c ∈ x, c.isDigit = false ∧ Sign.ofSymbol? c = none := fun c hc =>
    ⟨not_isDigit_of_isAlpha (hletters c hc), sign_of_isAlpha (hletters c hc)⟩
  have hcollapse := collapse_append_of_no_sign (fun c hc => (hletter c hc).2) []
  rw [List.append_nil, collapse_nil, List.append_nil] at hcollapse
  exact ⟨hne, blankless_of_isIdentifier hx, hcollapse,
    fun c hc => hletter c (List.mem_of_mem_head? hc),
    fun c hc => hletter c (List.mem_of_mem_getLast? hc)⟩

/-- A text in parentheses is sealed if it has nothing to lose. -/
theorem sealed_group {text : Text} (hblank : text.Blankless) (hcollapse : text.collapse = text) :
    Sealed text.group := by
  refine ⟨by simp [group], ?_, ?_, ?_, ?_⟩
  · intro c hc
    obtain rfl | hinside | rfl : c = '(' ∨ c ∈ text ∨ c = ')' := by simpa [group] using hc
    · decide
    · exact hblank c hinside
    · decide
  · rw [group, collapse_append_cons (by decide), List.cons_append,
      collapse_of_not_sign (by decide), hcollapse]
    rfl
  · intro c hc
    obtain rfl : c = '(' := by simpa [group, eq_comm] using hc
    decide
  · intro c hc
    have htext : text.group = '(' :: text ++ [')'] := rfl
    rw [htext, List.getLast?_concat, Option.mem_some_iff] at hc
    rw [← hc]
    decide

/-! ## What does not notice -/

theorem mem_replaceNames {c : Char} {text : Text} (h : c ∈ replaceNames f text) :
    c ∈ text ∨ ∃ x, isIdentifier x ∧ c ∈ f x := by
  induction text using name_induction with
  | nil => simp at h
  | name x rest hx hrest ih =>
      rw [replaceNames_name_append hx hrest, List.mem_append] at h
      obtain hname | htail := h
      · exact Or.inr ⟨x, hx, hname⟩
      · exact (ih htail).imp (List.mem_append_right x) id
  | other d rest halpha ih =>
      rw [replaceNames_cons halpha, List.mem_cons] at h
      obtain rfl | htail := h
      · exact Or.inl List.mem_cons_self
      · exact (ih htail).imp (List.mem_cons_of_mem d) id

section Sealed

variable (hsealed : ∀ x, isIdentifier x → Sealed (f x))
include hsealed

/-- No blanks come up where there were none. -/
theorem blankless_replaceNames {text : Text} (h : text.Blankless) :
    (replaceNames f text).Blankless := by
  intro c hc
  obtain htext | ⟨x, hx, hname⟩ := mem_replaceNames hc
  · exact h c htext
  · exact (hsealed x hx).blankless c hname

/-- A text that starts with no digit and no sign still starts with none. -/
theorem head?_replaceNames_class {p : Char → Prop}
    (hp : ∀ c, c.isDigit = false ∧ Sign.ofSymbol? c = none → p c) {text : Text}
    (h : ∀ c ∈ text.head?, p c) : ∀ c ∈ (replaceNames f text).head?, p c := by
  cases text with
  | nil => simp
  | cons c text =>
      by_cases halpha : c.isAlpha
      · obtain ⟨x, rest, hsplit, hne, hall, hrest⟩ := exists_stretch halpha text
        have hx : isIdentifier x := by simp [isIdentifier, hne, hall]
        rw [hsplit, replaceNames_name_append hx hrest,
          List.head?_append_of_ne_nil _ (hsealed x hx).ne_nil]
        exact fun b hb => hp b ((hsealed x hx).starts b hb)
      · rw [head?_replaceNames (by simpa using halpha)]
        exact h

theorem putSign_replaceNames (s : Sign) (text : Text) :
    putSign s (replaceNames f text) = replaceNames f (putSign s text) := by
  have hsymbol : ∀ t : Sign, t.symbol.isAlpha = false := fun t => by cases t <;> rfl
  obtain ⟨t, after, rfl⟩ | hhead := leading_sign_or_none text
  · rw [replaceNames_cons (hsymbol t), putSign_symbol_cons, putSign_symbol_cons,
      replaceNames_cons (hsymbol _)]
  · have hafter := head?_replaceNames_class hsealed (p := fun c => Sign.ofSymbol? c = none)
      (fun _ hc => hc.2) hhead
    rw [putSign_of_head hafter, putSign_of_head hhead, replaceNames_cons (hsymbol s)]

omit hsealed in
/-- Collapsing puts no letter in front. -/
theorem head?_collapse {text : Text} (h : ∀ c ∈ text.head?, c.isAlpha = false) :
    ∀ c ∈ (collapse text).head?, c.isAlpha = false := by
  cases text with
  | nil => simp
  | cons c text =>
      cases hc : Sign.ofSymbol? c with
      | none =>
          rw [collapse_of_not_sign hc]
          exact h
      | some s =>
          rw [collapse_cons, putChar_of_sign hc]
          have hsymbol : ∀ t : Sign, ∀ b ∈ some t.symbol, b.isAlpha = false := fun t b hb => by
            rw [← Option.mem_some_iff.1 hb]
            cases t <;> rfl
          obtain ⟨t, after, hafter⟩ | hhead := leading_sign_or_none (collapse text)
          · rw [hafter, putSign_symbol_cons]
            exact hsymbol _
          · rw [putSign_of_head hhead]
            exact hsymbol s

/-- **Runs of signs do not notice.** -/
theorem collapse_replaceNames (text : Text) :
    collapse (replaceNames f text) = replaceNames f (collapse text) := by
  induction text using name_induction with
  | nil => rfl
  | name x rest hx hrest ih =>
      rw [replaceNames_name_append hx hrest, (hsealed x hx).collapse_append, ih,
        (sealed_name hx).collapse_append, replaceNames_name_append hx (head?_collapse hrest)]
  | other c rest halpha ih =>
      rw [replaceNames_cons halpha, collapse_cons, collapse_cons, ih]
      cases hc : Sign.ofSymbol? c with
      | none => simp only [putChar, hc, replaceNames_cons halpha]
      | some s => rw [putChar_of_sign hc, putChar_of_sign hc, putSign_replaceNames hsealed]

end Sealed

end Text

/-! ## In the pieces -/

open Text

/-- A piece, or the pieces of the text that stands for it if it is a name. -/
def Piece.replace (f : Text → Text) : Piece → List Piece
  | token (.identifier x) => lex (f x)
  | piece => [piece]

/-- **In the pieces of a text, too, the names give way and the rest stays.** -/
theorem lex_replaceNames {f : Text → Text} (hsealed : ∀ x, isIdentifier x → Sealed (f x))
    (text : Text) : lex (replaceNames f text) = (lex text).flatMap (Piece.replace f) := by
  induction text using run_induction with
  | nil => rfl
  | name x rest hx hrest ih =>
      have hapart : ∀ a ∈ (f x).getLast?, ∀ b ∈ (replaceNames f rest).head?,
          joined a b = false := by
        intro a ha b hb
        rw [head?_replaceNames hrest] at hb
        simp [joined, ((hsealed x hx).ends a ha).1, hrest b hb]
      rw [replaceNames_name_append hx hrest, lex_append hapart, lex_name_append hx hrest, ih,
        List.flatMap_cons]
      rfl
  | numeral digits rest hdigits hrest ih =>
      have hletter : ∀ c ∈ digits, c.isAlpha = false := fun c hc =>
        not_isAlpha_of_isDigit (isDigit_of_mem_numeral hdigits hc)
      have hback := head?_replaceNames_class hsealed (fun _ hc => hc.1) hrest
      rw [replaceNames_append_of_no_letter hletter, lex_numeral_append hdigits hback,
        lex_numeral_append hdigits hrest, ih, List.flatMap_cons]
      rfl
  | mark c rest halpha hdigit ih =>
      rw [replaceNames_cons halpha]
      cases hmark : Token.ofMark? c with
      | none =>
          rw [lex_stray_cons halpha hdigit hmark, lex_stray_cons halpha hdigit hmark, ih,
            List.flatMap_cons]
          rfl
      | some mark =>
          have hstays : Piece.replace f (.token mark) = [.token mark] := by
            obtain ⟨-, rfl⟩ | ⟨-, rfl⟩ | ⟨op, -, rfl⟩ := Token.mark_cases hmark <;> rfl
          rw [lex_mark_cons hmark, lex_mark_cons hmark, ih, List.flatMap_cons, hstays,
            List.singleton_append]

/-- **Blanks, runs of signs and pieces, one after the other.** -/
theorem pieces_replaceNames {f : Text → Text} (hsealed : ∀ x, isIdentifier x → Sealed (f x))
    (source : Text) :
    pieces (source.stripBlanks.replaceNames f) = (pieces source).flatMap (Piece.replace f) := by
  have hblank : source.stripBlanks.Blankless :=
    stripBlanks_eq_self_iff.1 (stripBlanks_stripBlanks source)
  rw [pieces, stripBlanks_eq_self_iff.2 (blankless_replaceNames hsealed hblank),
    collapse_replaceNames hsealed, lex_replaceNames hsealed]
  rfl

end Calculator
