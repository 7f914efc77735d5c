import Calculator.Proofs.Blanks
import Calculator.Proofs.Seams

/-!
# Signs count by their parity

Signs that are laid in front of a text one after the other merge into one, so a
run of signs does the same as the one sign that it counts as: a minus if the run
holds an odd number of minus signs, a plus otherwise.  A run may therefore make
room for any other run with the same parity, and the collapsed text does not
notice.

A blank between two signs keeps them apart as long as it stands there.  But what
was merged before the blanks go merges with the rest afterwards, and merging
does not depend on the grouping; so it makes no difference to the tokens of a
text whether its runs are collapsed before the blanks are stripped as well.

* `putSign_putSign`, `collapse_signs_append` — signs in front of a text merge into one;
* `collapse_flatten` — runs of signs in the place of others with the same parity;
* `collapse_stripBlanks_collapse` — collapsing before the blanks go changes nothing
  after they are gone.
-/

namespace Calculator

namespace Text

/-! ## Runs of signs -/

/-- The sign that a run of signs counts as: a minus for an odd number of minus signs. -/
def signOf (run : Text) : Sign :=
  if run.count '-' % 2 = 1 then .minus else .plus

/-- A run of signs: one sign at least, and nothing but signs. -/
def IsSigns (run : Text) : Prop :=
  run ≠ [] ∧ ∀ c ∈ run, (Sign.ofSymbol? c).isSome

instance (run : Text) : Decidable run.IsSigns :=
  @instDecidableAnd (run ≠ []) _ inferInstance (List.decidableBAll _ run)

/-- A sign in front of a run merges with what the run counts as. -/
theorem signOf_cons (s : Sign) (run : Text) :
    signOf (s.symbol :: run) = s.mul (signOf run) := by
  cases s with
  | plus =>
      have hcount : (Sign.plus.symbol :: run).count '-' = run.count '-' :=
        List.count_cons_of_ne (by decide)
      rw [signOf, hcount]
      rfl
  | minus =>
      have hcount : (Sign.minus.symbol :: run).count '-' = run.count '-' + 1 :=
        List.count_cons_self
      unfold signOf
      rw [hcount]
      rcases Nat.mod_two_eq_zero_or_one (run.count '-') with heven | hodd
      · rw [if_pos (by omega), if_neg (by omega)]
        rfl
      · rw [if_neg (by omega), if_pos hodd]
        rfl

/-- Two signs in front of a text are one sign in front of it. -/
theorem putSign_putSign (s t : Sign) (text : Text) :
    putSign s (putSign t text) = putSign (s.mul t) text := by
  rcases leading_sign_or_none text with ⟨u, after, rfl⟩ | hhead
  · rw [putSign_symbol_cons, putSign_symbol_cons, putSign_symbol_cons, Sign.mul_assoc]
  · rw [putSign_of_head hhead, putSign_symbol_cons, putSign_of_head hhead]

/-- **A run of signs does what the one sign does that it counts as.** -/
theorem collapse_signs_append {run : Text} (h : run.IsSigns) (back : Text) :
    collapse (run ++ back) = putSign (signOf run) (collapse back) := by
  obtain ⟨hne, hsigns⟩ := h
  induction run with
  | nil => exact absurd rfl hne
  | cons c run ih =>
      obtain ⟨s, hs⟩ := Option.isSome_iff_exists.1 (hsigns c List.mem_cons_self)
      obtain rfl := Sign.ofSymbol?_eq_some_iff.1 hs
      rw [List.cons_append, collapse_symbol_cons, signOf_cons]
      by_cases hlast : run = []
      · subst hlast
        cases s <;> rfl
      · rw [ih hlast fun d hd => hsigns d (List.mem_cons_of_mem _ hd), putSign_putSign]

/-! ## Runs in the place of others -/

/-- The text cut wherever two neighbours are not both signs: each of its longest runs of signs
is one stretch, and every other character is a stretch of its own. -/
def stretches (text : Text) : List Text :=
  text.splitBy bothSigns

/-- A stretch that another one may make room for: the same, or a run of signs for a run of signs,
with the same parity of minus signs. -/
def MakesRoom (old new : Text) : Prop :=
  new = old ∨ old.IsSigns ∧ new.IsSigns ∧ new.count '-' % 2 = old.count '-' % 2

instance (old new : Text) : Decidable (old.MakesRoom new) :=
  inferInstanceAs (Decidable (new = old ∨ old.IsSigns ∧ new.IsSigns ∧ _))

theorem MakesRoom.collapse_append {old new : Text} (h : old.MakesRoom new) {back back' : Text}
    (hback : collapse back' = collapse back) :
    collapse (new ++ back') = collapse (old ++ back) := by
  rcases h with rfl | ⟨hold, hnew, hparity⟩
  · rw [Text.collapse_append, Text.collapse_append, hback]
  · have hsign : signOf new = signOf old := by
      unfold signOf
      rw [hparity]
    rw [collapse_signs_append hnew, collapse_signs_append hold, hsign, hback]

/-- **Collapsing does not notice** runs of signs in the place of others with the same parity. -/
theorem collapse_flatten {olds news : List Text} (h : List.Forall₂ MakesRoom olds news) :
    collapse news.flatten = collapse olds.flatten := by
  induction h with
  | nil => rfl
  | @cons old new olds news hfirst hrest ih =>
      rw [List.flatten_cons, List.flatten_cons]
      exact hfirst.collapse_append ih

example : stretches ['5', '-', '+', '2', '*', '-', '3'] =
    [['5'], ['-', '+'], ['2'], ['*'], ['-'], ['3']] := by decide

/-! ## Signs with blanks between them -/

theorem sign_of_isBlank {c : Char} (h : isBlank c) : Sign.ofSymbol? c = none := by
  cases hs : Sign.ofSymbol? c with
  | none => rfl
  | some s =>
      rw [(sign_class hs).2.2] at h
      cases h

theorem stripBlanks_symbol_cons (s : Sign) (text : Text) :
    stripBlanks (s.symbol :: text) = s.symbol :: stripBlanks text := by
  have hkept : isBlank s.symbol = false := (sign_class (Sign.ofSymbol?_symbol s)).2.2
  simp [stripBlanks, hkept]

/-- **One character.**  Whether it has merged with the text behind it does not show after the
blanks are gone. -/
theorem collapse_stripBlanks_putChar (c : Char) (text : Text) :
    collapse (stripBlanks (putChar c text)) = collapse (stripBlanks (c :: text)) := by
  cases hc : Sign.ofSymbol? c with
  | none => rw [putChar, hc]
  | some s =>
      obtain rfl := Sign.ofSymbol?_eq_some_iff.1 hc
      rw [putChar_of_sign hc]
      rcases leading_sign_or_none text with ⟨t, after, rfl⟩ | hhead
      · simp only [putSign_symbol_cons, stripBlanks_symbol_cons, collapse_symbol_cons,
          putSign_putSign]
      · rw [putSign_of_head hhead]

/-- **A text.**  Collapsing its runs before the blanks go changes nothing after they are gone. -/
theorem collapse_stripBlanks_collapse (text : Text) :
    collapse (stripBlanks (collapse text)) = collapse (stripBlanks text) := by
  induction text with
  | nil => rfl
  | cons c text ih =>
      have hcut : ∀ back : Text, stripBlanks (c :: back) = stripBlanks [c] ++ stripBlanks back :=
        fun back => stripBlanks_append [c] back
      rw [collapse_cons, collapse_stripBlanks_putChar, hcut, hcut text, collapse_append, ih,
        ← collapse_append]

end Text

/-! ## The tokens of a text -/

/-- Texts that are the same once they are stripped and collapsed have the same tokens. -/
theorem tokenize_congr_collapse {s t : Text}
    (h : s.stripBlanks.collapse = t.stripBlanks.collapse) : tokenize s = tokenize t := by
  rw [tokenize, tokenize, h]

/-- **The tokens of a text depend on its characters other than blanks, and of its signs on the
parity only.**  They are the same after the blanks are stripped, and the same after the runs of
signs are collapsed, though collapsing itself does not reach across a blank.  And they are the same
for every text that the other becomes, blanks apart, when some of its longest runs of signs make
room for others with the same parity of minus signs; if the one has none, the other has none for
the same character. -/
theorem tokens_depend_on_sign_parity (s : Text) :
    tokenize s.stripBlanks = tokenize s ∧
      tokenize s.collapse = tokenize s ∧
      (∀ (front back : Text) (c : Char), s = front ++ c :: back → Text.isBlank c →
        s.collapse = front.collapse ++ c :: back.collapse) ∧
      ∀ (t : Text) (others : List Text),
        List.Forall₂ Text.MakesRoom s.stripBlanks.stretches others →
        t.stripBlanks = others.flatten → tokenize t = tokenize s := by
  refine ⟨?_, ?_, ?_, ?_⟩
  · exact tokenize_congr s.stripBlanks_stripBlanks
  · exact tokenize_congr_collapse s.collapse_stripBlanks_collapse
  · intro front back c hs hblank
    rw [hs, Text.collapse_append_cons (Text.sign_of_isBlank hblank)]
  · intro t others hothers ht
    apply tokenize_congr_collapse
    rw [ht, Text.collapse_flatten hothers, Text.stretches, List.flatten_splitBy]

/-- Signs and blanks mixed, `5 -- + - 2` against `5-2`; a run that is collapsed in parts; and a
stray character. -/
theorem tokens_depend_on_sign_parity_mixed :
    List.Forall₂ Text.MakesRoom (Text.stripBlanks "5 -- + - 2".toList).stretches
        [['5'], ['-'], ['2']] ∧
      tokenize "5 -2".toList = tokenize "5 -- + - 2".toList ∧
      tokenize (Text.collapse "5 -- + - 2".toList) = tokenize "5 -- + - 2".toList ∧
      Text.collapse "5 -- + - 2".toList = "5 + + - 2".toList ∧
      tokenize "+2 $".toList = tokenize "- - 2 $".toList := by
  have hstretches : (Text.stripBlanks "5 -- + - 2".toList).stretches =
      [['5'], ['-', '-', '+', '-'], ['2']] := by decide
  have hstray : (Text.stripBlanks "- - 2 $".toList).stretches = [['-', '-'], ['2'], ['$']] := by
    decide
  have hodd : Text.MakesRoom ['-', '-', '+', '-'] ['-'] := by decide
  have heven : Text.MakesRoom ['-', '-'] ['+'] := by decide
  have hroom : List.Forall₂ Text.MakesRoom (Text.stripBlanks "5 -- + - 2".toList).stretches
      [['5'], ['-'], ['2']] := by
    rw [hstretches]
    exact .cons (Or.inl rfl) (.cons hodd (.cons (Or.inl rfl) .nil))
  have hroom' : List.Forall₂ Text.MakesRoom (Text.stripBlanks "- - 2 $".toList).stretches
      [['+'], ['2'], ['$']] := by
    rw [hstray]
    exact .cons heven (.cons (Or.inl rfl) (.cons (Or.inl rfl) .nil))
  refine ⟨hroom, ?_, ?_, by decide, ?_⟩
  · exact (tokens_depend_on_sign_parity _).2.2.2 _ _ hroom (by decide)
  · exact (tokens_depend_on_sign_parity _).2.1
  · exact (tokens_depend_on_sign_parity _).2.2.2 _ _ hroom' (by decide)

end Calculator
