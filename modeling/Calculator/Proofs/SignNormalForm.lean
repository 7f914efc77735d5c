import Calculator.Proofs.SignParity

/-!
# The normal form of a text under the parity of its signs

Two texts differ in their signs only if the one becomes the other when some of
its longest runs of signs make room for others with the same parity.  Among all
such texts there is one without neighbouring signs, and it is the collapsed
text: every longest run has given way to the one sign that it counts as, and
everything else is in its place.

The collapsed text can be written down in one pass from the left.  Inside a run
the pass only keeps the sign that the run counts as so far; it is written as soon
as another character comes, or at the end.  What such a pass still has to do is
put its pending sign in front of what is to come, and that is all that the
induction over the rest of the text needs.

* `collapse_eq_flatMap_settle` — every stretch of a text is settled on its own;
* `collapse_eq_iff` — the texts that collapse to the same text;
* `collapse_collapse_append` — a front part may be collapsed before;
* `Pass.ahead_step`, `Pass.flush_foldl` — one character of a pass, and a whole text.
-/

namespace Calculator.Text

/-- The two characters that are signs. -/
def isSign (c : Char) : Bool :=
  c == '+' || c == '-'

theorem isSome_ofSymbol? (c : Char) : (Sign.ofSymbol? c).isSome = isSign c := by
  unfold Sign.ofSymbol?
  split
  · rfl
  · rfl
  · next hplus hminus =>
      have hother : c ≠ '+' ∧ c ≠ '-' := ⟨hplus, hminus⟩
      simp [isSign, hother]

theorem ofSymbol?_eq_none_iff {c : Char} : Sign.ofSymbol? c = none ↔ isSign c = false := by
  rw [← isSome_ofSymbol?, Option.isSome_eq_false_iff, Option.isNone_iff_eq_none]

theorem bothSigns_eq (a b : Char) : bothSigns a b = (isSign a && isSign b) := by
  rw [bothSigns, isSome_ofSymbol?, isSome_ofSymbol?]

theorem isSigns_iff {run : Text} : run.IsSigns ↔ run ≠ [] ∧ ∀ c ∈ run, isSign c := by
  simp [IsSigns, isSome_ofSymbol?]

/-! ## Stretches -/

/-- Neighbours in a run of joined signs are signs throughout. -/
theorem isSigns_of_isChain {c d : Char} {rest : Text}
    (h : (c :: d :: rest).IsChain fun a b => bothSigns a b) : IsSigns (c :: d :: rest) := by
  rw [isSigns_iff]
  refine ⟨by simp, ?_⟩
  induction rest generalizing c d with
  | nil => simpa [bothSigns_eq] using h
  | cons e rest ih =>
      rw [List.isChain_cons_cons, bothSigns_eq, Bool.and_eq_true] at h
      intro x hx
      cases hx with
      | head => exact h.1.1
      | tail _ hx => exact ih h.2 x hx

/-- A stretch of a text is a run of signs, or one character that is none. -/
theorem stretch_cases {text stretch : Text} (h : stretch ∈ text.stretches) :
    stretch.IsSigns ∨ ∃ c, stretch = [c] ∧ isSign c = false := by
  have hne : stretch ≠ [] := List.ne_nil_of_mem_splitBy h
  have hchain : stretch.IsChain fun a b => bothSigns a b := List.isChain_of_mem_splitBy h
  match stretch with
  | [] => exact absurd rfl hne
  | [c] =>
      cases hc : isSign c with
      | true => exact Or.inl (isSigns_iff.2 (by simp [hc]))
      | false => exact Or.inr ⟨c, rfl, hc⟩
  | c :: d :: rest => exact Or.inl (isSigns_of_isChain hchain)

/-- What a stretch is collapsed to: a run of signs to the sign that it counts as, and any other
stretch to itself. -/
def settle (stretch : Text) : Text :=
  if stretch.IsSigns then [(signOf stretch).symbol] else stretch

theorem settle_of_isSigns {run : Text} (h : run.IsSigns) : settle run = [(signOf run).symbol] :=
  if_pos h

theorem settle_of_not_sign {c : Char} (h : isSign c = false) : settle [c] = [c] := by
  refine if_neg fun hsigns => ?_
  have hc := (isSigns_iff.1 hsigns).2 c (by simp)
  simp [h] at hc

theorem isSign_symbol (s : Sign) : isSign s.symbol := by
  cases s <;> rfl

theorem count_symbol_signOf (run : Text) :
    [(signOf run).symbol].count '-' % 2 = run.count '-' % 2 := by
  unfold signOf
  split
  · next hodd => rw [hodd]; rfl
  · next heven => rw [Nat.mod_two_ne_one.1 heven]; rfl

/-- A stretch makes room for what it is collapsed to. -/
theorem makesRoom_settle (stretch : Text) : stretch.MakesRoom (settle stretch) := by
  by_cases h : stretch.IsSigns
  · rw [settle_of_isSigns h]
    refine Or.inr ⟨h, ?_, count_symbol_signOf stretch⟩
    exact isSigns_iff.2 (by simp [isSign_symbol])
  · exact Or.inl (if_neg h)

/-- A stretch is collapsed to one character, which is a sign if the stretch is a run of signs. -/
theorem settle_cases {text stretch : Text} (h : stretch ∈ text.stretches) :
    ∃ c, settle stretch = [c] ∧ (isSign c → ∀ d ∈ stretch, isSign d) := by
  rcases stretch_cases h with hsigns | ⟨c, rfl, hc⟩
  · exact ⟨_, settle_of_isSigns hsigns, fun _ => (isSigns_iff.1 hsigns).2⟩
  · exact ⟨c, settle_of_not_sign hc, fun hsign => by simp [hc] at hsign⟩

/-- Two stretches side by side are not both collapsed to signs. -/
theorem settled_isChain (text : Text) :
    (text.stretches.flatMap settle).IsChain fun a b => bothSigns a b = false := by
  have hsingle : ∀ stretch ∈ text.stretches, ∃ c, settle stretch = [c] :=
    fun stretch h => (settle_cases h).imp fun _ hc => hc.1
  have hnil : [] ∉ text.stretches.map settle := by
    intro hmem
    obtain ⟨stretch, hstretch, hsettle⟩ := List.mem_map.1 hmem
    obtain ⟨c, hc⟩ := hsingle stretch hstretch
    simp [hc] at hsettle
  rw [List.flatMap_def, List.isChain_flatten hnil]
  refine ⟨fun settled hsettled => ?_, ?_⟩
  · obtain ⟨stretch, hstretch, rfl⟩ := List.mem_map.1 hsettled
    obtain ⟨c, hc⟩ := hsingle stretch hstretch
    rw [hc]
    exact List.isChain_singleton c
  · rw [List.isChain_map, List.isChain_iff_forall_rel_of_append_cons_cons]
    intro first second front back hsplit
    have hapart := List.isChain_getLast_head_splitBy bothSigns text
    rw [List.isChain_iff_forall_rel_of_append_cons_cons] at hapart
    obtain ⟨hfirst, hsecond, hends⟩ := hapart hsplit
    have hfirstMem : first ∈ text.stretches := by simp [hsplit]
    have hsecondMem : second ∈ text.stretches := by simp [hsplit]
    obtain ⟨a, ha, hsigns⟩ := settle_cases hfirstMem
    obtain ⟨b, hb, hsigns'⟩ := settle_cases hsecondMem
    -- If both were collapsed to signs, their ends that meet would be signs as well.
    have hboth : ¬(isSign a ∧ isSign b) := by
      rintro ⟨hsigna, hsignb⟩
      have hlast := hsigns hsigna _ (List.getLast_mem hfirst)
      have hhead := hsigns' hsignb _ (List.head_mem hsecond)
      simp [bothSigns_eq, hlast, hhead] at hends
    simpa [ha, hb, bothSigns_eq] using hboth

/-- **Every stretch of a text is collapsed on its own.** -/
theorem collapse_eq_flatMap_settle (text : Text) :
    collapse text = text.stretches.flatMap settle := by
  have hroom : List.Forall₂ MakesRoom text.stretches (text.stretches.map settle) := by
    rw [List.forall₂_map_right_iff, List.forall₂_same]
    exact fun stretch _ => makesRoom_settle stretch
  calc collapse text
      = collapse text.stretches.flatten := by rw [stretches, List.flatten_splitBy]
    _ = collapse (text.stretches.flatMap settle) := by
        rw [← collapse_flatten hroom, List.flatMap_def]
    _ = text.stretches.flatMap settle := collapse_eq_self (settled_isChain text)

/-! ## The texts with the same normal form -/

/-- In a text without neighbouring signs every character is a stretch of its own. -/
theorem stretches_of_isChain {text : Text}
    (h : text.IsChain fun a b => bothSigns a b = false) :
    text.stretches = text.map fun c => [c] := by
  induction text with
  | nil => rfl
  | cons c rest ih =>
      rw [List.isChain_cons] at h
      have hcut : stretches (c :: rest) = [c] :: stretches rest := by
        refine List.splitBy_append (l := [c]) fun a ha b hb => ?_
        obtain rfl : c = a := by simpa using ha
        exact h.1 b hb
      rw [hcut, ih h.2, List.map_cons]

/-- The stretches of the collapsed text are those of the text, each of them settled. -/
theorem stretches_collapse (text : Text) :
    text.collapse.stretches = text.stretches.map settle := by
  rw [stretches_of_isChain (collapse_isChain text), collapse_eq_flatMap_settle, List.map_flatMap,
    List.map_eq_flatMap]
  refine List.flatMap_congr fun stretch hstretch => ?_
  obtain ⟨c, hc, -⟩ := settle_cases hstretch
  rw [hc, List.map_singleton]

/-- Stretches that are collapsed to the same make room for one another. -/
theorem makesRoom_of_settle {s t old new : Text} (hold : old ∈ s.stretches)
    (hnew : new ∈ t.stretches) (h : settle old = settle new) : old.MakesRoom new := by
  rcases stretch_cases hold with hsigns | ⟨c, rfl, hc⟩
  · rcases stretch_cases hnew with hsigns' | ⟨d, rfl, hd⟩
    · have hparity : new.count '-' % 2 = old.count '-' % 2 := by
        rw [← count_symbol_signOf new, ← count_symbol_signOf old, ← settle_of_isSigns hsigns,
          ← settle_of_isSigns hsigns', h]
      exact Or.inr ⟨hsigns, hsigns', hparity⟩
    · rw [settle_of_isSigns hsigns, settle_of_not_sign hd, List.singleton_inj] at h
      rw [← h, isSign_symbol] at hd
      cases hd
  · rcases stretch_cases hnew with hsigns' | ⟨d, rfl, hd⟩
    · rw [settle_of_not_sign hc, settle_of_isSigns hsigns', List.singleton_inj] at h
      rw [h, isSign_symbol] at hc
      cases hc
    · rw [settle_of_not_sign hc, settle_of_not_sign hd] at h
      exact Or.inl h.symm

/-- **The texts that collapse to the same text** are those that become one another when longest
runs of signs make room for others with the same parity. -/
theorem collapse_eq_iff {s t : Text} :
    s.collapse = t.collapse ↔ List.Forall₂ MakesRoom s.stretches t.stretches := by
  constructor
  · intro h
    have hsettled : s.stretches.map settle = t.stretches.map settle := by
      rw [← stretches_collapse, ← stretches_collapse, h]
    have hpairs :
        List.Forall₂ (fun old new => settle old = settle new) s.stretches t.stretches := by
      rwa [← List.forall₂_eq_eq_eq, List.forall₂_map_left_iff, List.forall₂_map_right_iff]
        at hsettled
    rw [List.forall₂_iff_zip] at hpairs ⊢
    refine ⟨hpairs.1, fun hmem => ?_⟩
    obtain ⟨hold, hnew⟩ := List.of_mem_zip hmem
    exact makesRoom_of_settle hold hnew (hpairs.2 hmem)
  · intro h
    have hall := collapse_flatten h
    rw [stretches, stretches, List.flatten_splitBy, List.flatten_splitBy] at hall
    exact hall.symm

/-! ## Longest runs -/

/-- A longest run of signs gives way to the one sign that it counts as. -/
theorem collapse_of_longestRun {front run back : Text} (h : LongestRun isSign front run back) :
    collapse (front ++ run ++ back) =
      collapse front ++ (signOf run).symbol :: collapse back := by
  have hsigns : run.IsSigns := isSigns_iff.2 ⟨h.ne_nil, h.all⟩
  have hback : ∀ c ∈ (collapse back).head?, Sign.ofSymbol? c = none := by
    cases back with
    | nil => simp
    | cons c rest =>
        have hc : Sign.ofSymbol? c = none := ofSymbol?_eq_none_iff.2 (h.ends c rfl)
        rw [collapse_of_not_sign hc]
        simpa using hc
  have hrun : collapse (run ++ back) = (signOf run).symbol :: collapse back := by
    rw [collapse_signs_append hsigns, putSign_of_head hback]
  rw [List.append_assoc]
  rcases List.eq_nil_or_concat front with rfl | ⟨before, c, rfl⟩
  · exact hrun
  · have hc : Sign.ofSymbol? c = none := ofSymbol?_eq_none_iff.2 (h.starts c (by simp))
    have hfront : collapse (before ++ [c]) = collapse before ++ [c] :=
      collapse_append_cons hc before []
    rw [List.concat_eq_append, List.append_assoc, List.singleton_append, collapse_append_cons hc,
      hrun, hfront, List.append_assoc, List.singleton_append]

/-! ## Front parts -/

/-- Whether one character has merged with the text behind it does not show once more text has come
and all of it is collapsed. -/
theorem collapse_putChar_append (c : Char) (front back : Text) :
    collapse (putChar c front ++ back) = putChar c (collapse (front ++ back)) := by
  cases hc : Sign.ofSymbol? c with
  | none => simp only [putChar, hc, List.cons_append, collapse_cons]
  | some s =>
      rw [putChar_of_sign hc, putChar_of_sign hc]
      rcases leading_sign_or_none front with ⟨t, after, rfl⟩ | hhead
      · rw [putSign_symbol_cons, List.cons_append, List.cons_append, collapse_symbol_cons,
          collapse_symbol_cons, putSign_putSign]
      · rw [putSign_of_head hhead, List.cons_append, collapse_symbol_cons]

/-- **A front part may be collapsed before.** -/
theorem collapse_collapse_append (s t : Text) : collapse (collapse s ++ t) = collapse (s ++ t) := by
  induction s with
  | nil => rfl
  | cons c s ih => rw [collapse_cons, collapse_putChar_append, ih, List.cons_append, collapse_cons]

/-! ## One pass from the left -/

/-- A pass over a text: what is written so far, and the sign that the run counts as that the pass
is in the middle of, if it is in one. -/
structure Pass where
  written : Text
  pending : Option Sign

namespace Pass

/-- A pass that has read nothing. -/
def start : Pass := ⟨[], none⟩

/-- The text that is written if no more characters come. -/
def flush (pass : Pass) : Text :=
  pass.written ++ (pass.pending.map Sign.symbol).toList

/-- Reads one character: a sign is kept, and any other character is written, behind the sign that
was kept. -/
def step (pass : Pass) (c : Char) : Pass :=
  match Sign.ofSymbol? c with
  | some s => { pass with pending := some ((pass.pending.getD .plus).mul s) }
  | none => ⟨pass.flush ++ [c], none⟩

/-- What is written in the end if the rest of the text is collapsed: the pending sign merges with
the sign in front of it. -/
def ahead (pass : Pass) (rest : Text) : Text :=
  match pass.pending with
  | some s => pass.written ++ putSign s rest
  | none => pass.written ++ rest

theorem ahead_nil (pass : Pass) : pass.ahead [] = pass.flush := by
  obtain ⟨written, pending⟩ := pass
  cases pending <;> rfl

/-- **One character.**  Read by the pass or laid in front of the rest, it does the same. -/
theorem ahead_step (pass : Pass) (c : Char) (rest : Text) :
    (pass.step c).ahead rest = pass.ahead (putChar c rest) := by
  obtain ⟨written, pending⟩ := pass
  cases hc : Sign.ofSymbol? c with
  | some s =>
      rw [putChar_of_sign hc]
      cases pending with
      | none => simp [step, hc, ahead, Sign.mul]
      | some t => simp [step, hc, ahead, putSign_putSign]
  | none =>
      cases pending with
      | none => simp [step, hc, ahead, flush, putChar]
      | some t =>
          have hput : putSign t (c :: rest) = t.symbol :: c :: rest :=
            putSign_of_head (by simpa using hc) t
          simp [step, hc, ahead, flush, putChar, hput]

/-- **A text.**  A pass writes what it has in front of the collapsed text. -/
theorem flush_foldl (pass : Pass) (text : Text) :
    (text.foldl step pass).flush = pass.ahead (collapse text) := by
  induction text generalizing pass with
  | nil => exact (ahead_nil pass).symm
  | cons c text ih => rw [List.foldl_cons, ih, ahead_step, collapse_cons]

end Pass

/-- **The collapsed text is the normal form of a text.**  Each of the longest runs of signs gives
way to a minus sign if it holds an odd number of them, and to a plus sign otherwise; every other
character stays in its place, and so the whole is the row of the settled stretches.  No two signs
are neighbours in it, it is collapsed already, and of a text in two parts each part may be collapsed
before.  Two texts have the same normal form exactly if the one becomes the other when longest runs
make room for others with the same parity.  One pass from the left writes it down. -/
theorem collapse_is_parity_normal_form (s t : Text) :
    (∀ front run back, s = front ++ run ++ back → LongestRun isSign front run back →
        s.collapse =
          front.collapse ++ (if run.count '-' % 2 = 1 then '-' else '+') :: back.collapse) ∧
      (∀ (front back : Text) (c : Char), s = front ++ c :: back → isSign c = false →
        s.collapse = front.collapse ++ c :: back.collapse) ∧
      s.collapse = s.stretches.flatMap settle ∧
      (∀ front a b back, s.collapse = front ++ a :: b :: back → ¬(isSign a ∧ isSign b)) ∧
      s.collapse.collapse = s.collapse ∧
      (s ++ t).collapse = (s.collapse ++ t.collapse).collapse ∧
      (s.collapse = t.collapse ↔ List.Forall₂ MakesRoom s.stretches t.stretches) ∧
      (s.foldl Pass.step Pass.start).flush = s.collapse := by
  have hagain : ∀ text : Text, text.collapse.collapse = text.collapse :=
    fun text => collapse_eq_self (collapse_isChain text)
  refine ⟨?_, ?_, collapse_eq_flatMap_settle s, ?_, hagain s, ?_, collapse_eq_iff,
    Pass.flush_foldl Pass.start s⟩
  · intro front run back hs hrun
    have hsign : (signOf run).symbol = if run.count '-' % 2 = 1 then '-' else '+' := by
      unfold signOf
      split <;> rfl
    rw [hs, collapse_of_longestRun hrun, hsign]
  · intro front back c hs hc
    rw [hs, collapse_append_cons (ofSymbol?_eq_none_iff.2 hc)]
  · intro front a b back hs hboth
    have hapart := collapse_isChain s
    rw [List.isChain_iff_forall_rel_of_append_cons_cons] at hapart
    have hneighbours := hapart hs
    simp [bothSigns_eq, hboth] at hneighbours
  · rw [collapse_collapse_append, collapse_append, collapse_append, hagain]

/-- A run that holds three minus signs and a plus sign, and one that spans the seam of two texts. -/
theorem collapse_is_parity_normal_form_seam :
    LongestRun isSign ['5'] ['-', '-', '+', '-'] ['2', '*', '*', '-'] ∧
      collapse "5--+-2**-".toList = "5-2**-".toList ∧
      collapse ("5--+-2**-".toList ++ "+-x".toList) = collapse ("5-2**-".toList ++ "-x".toList) ∧
      collapse ("5--+-2**-".toList ++ "+-x".toList) = "5-2**+x".toList ∧
      ¬(isSign '5' ∧ isSign '-') := by
  have hrun : LongestRun isSign ['5'] ['-', '-', '+', '-'] ['2', '*', '*', '-'] :=
    ⟨by simp, by simp [isSign], by simp [isSign], by simp [isSign]⟩
  have hodd := (collapse_is_parity_normal_form "5--+-2**-".toList "+-x".toList).1 ['5']
    ['-', '-', '+', '-'] ['2', '*', '*', '-'] rfl hrun
  have hother := (collapse_is_parity_normal_form "2**-".toList []).2.1 [] "**-".toList '2' rfl rfl
  have hseam := (collapse_is_parity_normal_form "5--+-2**-".toList "+-x".toList).2.2.2.2.2.1
  have hapart := (collapse_is_parity_normal_form "5--+-2**-".toList []).2.2.2.1 [] '5' '-'
    "2**-".toList (by decide)
  refine ⟨hrun, ?_, ?_, by decide, hapart⟩
  · rw [hodd, show ['2', '*', '*', '-'] = "2**-".toList from rfl, hother]
    decide
  · rw [hseam]
    decide

end Calculator.Text
