import Calculator.Proofs.Spelling

/-!
# Tokens and text, there and back

The rows of tokens that can be read from a text are the canonical ones, and a
canonical row that is written is read as itself.

The way from a text to its tokens has two parts.  Cutting the collapsed text
gives a raw row, and then minus signs join the numbers after them.  Both parts
can be undone: `signApart` takes the sign of a negative number off again, and a
raw row is cut out of its own spelling.  What the joining leaves is **settled**:
a negative number only where an operand was expected, and no minus sign in such
a place right in front of a number.

* `canonical_iff` — a canonical row has letters in its names, parted neighbours
  and is settled;
* `rawRow_of_lex` — the tokens of a collapsed text are a raw row;
* `RawRow.canonical_attachMinus` — joining its minus signs makes it canonical;
* `attachMinus_signApart` — on a settled row that undoes taking the signs off.
-/

namespace Calculator.Token

/-- What is left when every minus sign in front of an operand has joined the
number after it; the flag tells whether an operand is expected at the start. -/
def Settled : Bool → List Token → Prop
  | _, [] => True
  | expected, number n :: rest => (n < 0 → expected = true) ∧ Settled false rest
  | expected, token :: rest =>
    (expected = true → token = operator .sub → ∀ n, rest.head? ≠ some (number n)) ∧
      Settled token.awaitsOperand rest

/-- A token with the sign of a negative number apart. -/
def signApart : Token → List Token
  | number n => if n < 0 then [operator .sub, number (-n)] else [number n]
  | token => [token]

/-! ## What is cut out of a collapsed text -/

theorem letters_of_ofRun? {run : Text} (hrun : run.IsChain fun a b => Text.joined a b)
    {x : Text} (h : Piece.ofRun? run = some (.token (identifier x))) :
    ∀ c ∈ run, c.isAlpha := by
  rcases ofRun?_eq_token hrun h with ⟨hname, -⟩ | ⟨-, heq⟩ | ⟨c, -, hmark⟩
  · exact List.all_eq_true.1 (Bool.and_eq_true_iff.1 hname).2
  · cases heq
  · rcases mark_cases hmark with ⟨-, heq⟩ | ⟨-, heq⟩ | ⟨op, -, heq⟩ <;> cases heq

theorem digits_of_ofRun? {run : Text} (hrun : run.IsChain fun a b => Text.joined a b)
    {n : Int} (h : Piece.ofRun? run = some (.token (number n))) :
    0 ≤ n ∧ ∀ c ∈ run, c.isDigit := by
  rcases ofRun?_eq_token hrun h with ⟨-, heq⟩ | ⟨hnumeral, heq⟩ | ⟨c, -, hmark⟩
  · cases heq
  · cases heq
    exact ⟨Int.natCast_nonneg _, List.all_eq_true.1 (Bool.and_eq_true_iff.1 hnumeral).2⟩
  · rcases mark_cases hmark with ⟨-, heq⟩ | ⟨-, heq⟩ | ⟨op, -, heq⟩ <;> cases heq

/-- What is cut out of a text starts with a sign only if it is one. -/
theorem sign_of_ofRun? {run : Text} (hrun : run.IsChain fun a b => Text.joined a b)
    {t : Token} (h : Piece.ofRun? run = some (.token t)) (hsign : t.startsWithSign) :
    ∃ c, run = [c] ∧ (Sign.ofSymbol? c).isSome := by
  rcases ofRun?_eq_token hrun h with ⟨-, rfl⟩ | ⟨-, rfl⟩ | ⟨c, rfl, hmark⟩
  · simp [startsWithSign, isSign] at hsign
  · have hneg : (Decimal.value run : Int) < 0 := of_decide_eq_true hsign
    omega
  · obtain ⟨hsame, hstart⟩ := mark_isSign hmark
    exact ⟨c, rfl, by rw [← hsame, ← hstart]; exact hsign⟩

/-- Runs that are not joined, and whose ends are not both signs, are read as parted tokens. -/
theorem parted_of_runs {r q : Text} (hr : r.IsChain fun a b => Text.joined a b)
    (hq : q.IsChain fun a b => Text.joined a b)
    (hjoined : ∃ hr hq, Text.joined (r.getLast hr) (q.head hq) = false)
    (hsigns : ∀ a ∈ r.getLast?, ∀ b ∈ q.head?, Text.bothSigns a b = false)
    {s t : Token} (hs : Piece.ofRun? r = some (.token s)) (ht : Piece.ofRun? q = some (.token t)) :
    Parted s t := by
  obtain ⟨hrne, hqne, hapart⟩ := hjoined
  have hlast : r.getLast hrne ∈ r := List.getLast_mem hrne
  have hhead : q.head hqne ∈ q := List.head_mem hqne
  refine ⟨?_, ?_, ?_⟩
  · rintro x y ⟨rfl, rfl⟩
    have ha := letters_of_ofRun? hr hs _ hlast
    have hb := letters_of_ofRun? hq ht _ hhead
    simp [Text.joined, ha, hb] at hapart
  · rintro m n ⟨rfl, rfl⟩
    have ha := (digits_of_ofRun? hr hs).2 _ hlast
    have hb := (digits_of_ofRun? hq ht).2 _ hhead
    simp [Text.joined, ha, hb] at hapart
  · rintro ⟨hsign, hstart⟩
    have hsstart : s.startsWithSign := by
      cases s <;> simp_all [startsWithSign, isSign]
    obtain ⟨a, rfl, ha⟩ := sign_of_ofRun? hr hs hsstart
    obtain ⟨b, rfl, hb⟩ := sign_of_ofRun? hq ht hstart
    have hboth := hsigns a rfl b rfl
    simp [Text.bothSigns, ha, hb] at hboth

theorem ofRun?_isSome {run : Text} (h : run ≠ []) : (Piece.ofRun? run).isSome := by
  cases run with
  | nil => exact absurd rfl h
  | cons c rest =>
      rw [Piece.ofRun?]
      split
      · rfl
      · split
        · rfl
        · split <;> rfl

/-- Cutting a text without stray characters makes a token of every run. -/
theorem map_ofRun?_of_lex {text : Text} {row : List Token} (h : lex text = row.map .token) :
    text.runs.map Piece.ofRun? = row.map (some ∘ Piece.token) := by
  have hsome : ∀ piece ∈ text.runs.map Piece.ofRun?, piece.isSome := by
    intro piece hpiece
    obtain ⟨run, hrun, rfl⟩ := List.mem_map.1 hpiece
    exact ofRun?_isSome (List.ne_nil_of_mem_splitBy hrun)
  calc text.runs.map Piece.ofRun?
      = (text.runs.map Piece.ofRun?).filter Option.isSome := (List.filter_eq_self.2 hsome).symm
    _ = (text.runs.filterMap Piece.ofRun?).map some :=
        (List.map_filterMap_some_eq_filter_map_isSome).symm
    _ = (row.map Piece.token).map some := congrArg (List.map some) h
    _ = row.map (some ∘ Piece.token) := List.map_map

/-- **The tokens of a collapsed text are a raw row.** -/
theorem rawRow_of_lex {text : Text} (htext : text.IsChain fun a b => Text.bothSigns a b = false)
    {row : List Token} (h : lex text = row.map .token) : RawRow row := by
  have hmap := map_ofRun?_of_lex h
  have hruns : ∀ run ∈ text.runs, run.IsChain fun a b => Text.joined a b :=
    fun run hrun => List.isChain_of_mem_splitBy hrun
  constructor
  · intro t ht
    have hmem : some (Piece.token t) ∈ text.runs.map Piece.ofRun? := by
      rw [hmap]
      exact List.mem_map_of_mem ht
    obtain ⟨run, hrun, hread⟩ := List.mem_map.1 hmem
    rcases ofRun?_eq_token (hruns run hrun) hread with ⟨hname, rfl⟩ | ⟨-, rfl⟩ | ⟨c, -, hmark⟩
    · exact hname
    · exact Int.natCast_nonneg _
    · exact mark_raw hmark
  · have hjoined := List.isChain_getLast_head_splitBy Text.joined text
    have hsigns : text.runs.IsChain fun r q =>
        ∀ a ∈ r.getLast?, ∀ b ∈ q.head?, Text.bothSigns a b = false := by
      have hflat : text.runs.flatten.IsChain fun a b => Text.bothSigns a b = false := by
        rw [Text.runs, List.flatten_splitBy]
        exact htext
      exact ((List.isChain_flatten (List.nil_notMem_splitBy _ _)).1 hflat).2
    have hpieces : (text.runs.map Piece.ofRun?).IsChain fun o p =>
        ∀ s t, o = some (Piece.token s) → p = some (Piece.token t) → Parted s t := by
      rw [List.isChain_map, List.isChain_iff_forall_rel_of_append_cons_cons]
      rw [List.isChain_iff_forall_rel_of_append_cons_cons] at hjoined hsigns
      intro r q front back hsplit s t hs ht
      have hr : r ∈ text.runs := by simp [hsplit]
      have hq : q ∈ text.runs := by simp [hsplit]
      exact parted_of_runs (hruns r hr) (hruns q hq) (hjoined hsplit) (hsigns hsplit) hs ht
    rw [hmap, List.isChain_map] at hpieces
    exact hpieces.imp fun s t hst => hst s t rfl rfl

/-! ## Minus signs that join a number -/

/-- A token stays as it is unless it is a minus sign that joins the number after it. -/
theorem attachMinus_cons {expected : Bool} {token : Token} {row : List Token}
    (h : expected = true → token = operator .sub → ∀ n, row.head? ≠ some (number n)) :
    attachMinus expected (token :: row) = token :: attachMinus token.awaitsOperand row := by
  rw [attachMinus]
  intro n rest hexpected hsub hrow
  exact h hexpected hsub n (by rw [hrow]; rfl)

theorem signApart_of_ne_number {token : Token} (h : ∀ n, token ≠ number n) :
    signApart token = [token] := by
  cases token with
  | number n => exact absurd rfl (h n)
  | _ => rfl

/-- What it takes for a row to be settled, at its first token. -/
theorem settled_cons_iff {expected : Bool} {token : Token} {rest : List Token} :
    Settled expected (token :: rest) ↔
      (∀ n, token = number n → n < 0 → expected = true) ∧
        (expected = true → token = operator .sub → ∀ n, rest.head? ≠ some (number n)) ∧
          Settled token.awaitsOperand rest := by
  cases token with
  | number n => simp [Settled, awaitsOperand]
  | _ => simp [Settled]

/-- Taking the signs off makes no number the first token that was none. -/
theorem head?_flatMap_signApart {row : List Token} (h : ∀ n, row.head? ≠ some (number n)) :
    ∀ n, (row.flatMap signApart).head? ≠ some (number n) := by
  cases row with
  | nil => intro n; simp
  | cons token rest =>
      intro n
      have hnumber : ∀ m, token ≠ number m := fun m hm => h m (by rw [hm]; rfl)
      rw [List.flatMap_cons, signApart_of_ne_number hnumber]
      exact fun hhead => hnumber n (Option.some.inj hhead)

/-- **On a settled row, joining the minus signs undoes taking the signs off.** -/
theorem attachMinus_signApart {expected : Bool} {row : List Token} (h : Settled expected row) :
    attachMinus expected (row.flatMap signApart) = row := by
  induction row generalizing expected with
  | nil => simp
  | cons token rest ih =>
      obtain ⟨hnegative, hsub, hrest⟩ := settled_cons_iff.1 h
      by_cases hnumber : ∀ n, token ≠ number n
      · have hhead : expected = true → token = operator .sub →
            ∀ n, (rest.flatMap signApart).head? ≠ some (number n) :=
          fun hexpected htoken => head?_flatMap_signApart (hsub hexpected htoken)
        rw [List.flatMap_cons, signApart_of_ne_number hnumber, List.singleton_append,
          attachMinus_cons hhead, ih hrest]
      · obtain ⟨n, rfl⟩ : ∃ n, token = number n := by simpa using hnumber
        have htail : attachMinus false (rest.flatMap signApart) = rest := ih hrest
        by_cases hn : n < 0
        · rw [hnegative n rfl hn, List.flatMap_cons, signApart, if_pos hn, List.cons_append,
            List.singleton_append, attachMinus_sub_number, Int.neg_neg, htail]
        · rw [List.flatMap_cons, signApart, if_neg hn, List.singleton_append,
            attachMinus_of_ne_sub (by simp), awaitsOperand, htail]

/-- A number at the head after the joining was a number before, or its minus sign was there. -/
theorem head?_attachMinus {row : List Token} {n : Int}
    (h : (attachMinus true row).head? = some (number n)) :
    row.head? = some (number n) ∨ row.head? = some (operator .sub) := by
  cases row with
  | nil => simp at h
  | cons token rest =>
      by_cases htoken : token = operator .sub
      · exact Or.inr (by rw [htoken]; rfl)
      · rw [attachMinus_of_ne_sub htoken] at h
        exact Or.inl h

theorem RawRow.tail {token : Token} {row : List Token} (h : RawRow (token :: row)) : RawRow row :=
  ⟨fun t ht => h.raw t (List.mem_cons_of_mem token ht), h.parted.tail⟩

/-- **Joining the minus signs of a raw row leaves it settled.** -/
theorem settled_attachMinus {expected : Bool} {row : List Token} (h : RawRow row) :
    Settled expected (attachMinus expected row) := by
  fun_induction attachMinus expected row with
  | case1 => trivial
  | case2 n rest ih => exact ⟨fun _ => rfl, ih h.tail.tail⟩
  | case3 expected token rest hjoin ih =>
      refine settled_cons_iff.2 ⟨?_, ?_, ih h.tail⟩
      · intro n htoken hneg
        have hn : (number n).Raw := htoken ▸ h.raw token List.mem_cons_self
        exact absurd hneg (Int.not_lt.2 hn)
      · intro hexpected htoken n hhead
        rw [htoken] at hhead h
        rcases head?_attachMinus hhead with hnum | hsub
        · obtain ⟨back, hback⟩ := List.head?_eq_some_iff.1 hnum
          exact hjoin n back hexpected htoken hback
        · obtain ⟨back, rfl⟩ := List.head?_eq_some_iff.1 hsub
          have hparted : Parted (operator .sub) (operator .sub) :=
            (List.isChain_cons_cons.1 h.parted).1
          exact hparted.signs ⟨rfl, rfl⟩

/-- Behind a token that parts it from its row, joining the minus signs keeps the
neighbours parted. -/
theorem attachMinus_isChain {expected : Bool} {row : List Token} {front : Token}
    (hfront : front.awaitsOperand = expected) (h : (front :: row).IsChain Parted) :
    (front :: attachMinus expected row).IsChain Parted := by
  -- The token in front goes along: a number that takes a minus sign meets it without the sign.
  induction expected, row using attachMinus.induct generalizing front with
  | case1 expected => simp
  | case2 n rest ih =>
      obtain ⟨hsub, hrest⟩ := List.isChain_cons_cons.1 h
      have hsign : ¬front.isSign := fun hs => hsub.signs ⟨hs, rfl⟩
      have hnumber : Parted front (number (-n)) := by
        refine ⟨?_, ?_, fun hs => hsign hs.1⟩
        · rintro x y ⟨-, heq⟩
          cases heq
        · rintro k m ⟨rfl, -⟩
          cases hfront
      have hflip : (number (-n) :: rest).IsChain Parted := by
        refine hrest.tail.imp_head fun {t} ht => ⟨?_, ?_, ?_⟩
        · rintro x y ⟨heq, -⟩
          cases heq
        · rintro k m ⟨-, rfl⟩
          exact ht.numbers n m ⟨rfl, rfl⟩
        · rintro ⟨hs, -⟩
          cases hs
      rw [attachMinus_sub_number]
      exact List.isChain_cons_cons.2 ⟨hnumber, ih rfl hflip⟩
  | case3 expected token rest hjoin ih =>
      obtain ⟨hparted, hrest⟩ := List.isChain_cons_cons.1 h
      have hstay : attachMinus expected (token :: rest) =
          token :: attachMinus token.awaitsOperand rest := by
        refine attachMinus_cons fun hexpected hsub n hhead => ?_
        obtain ⟨back, hback⟩ := List.head?_eq_some_iff.1 hhead
        exact hjoin n back hexpected hsub hback
      rw [hstay]
      exact List.isChain_cons_cons.2 ⟨hparted, ih rfl hrest⟩

theorem identifier_mem_of_attachMinus {expected : Bool} {row : List Token} {x : Text}
    (h : identifier x ∈ attachMinus expected row) : identifier x ∈ row := by
  fun_induction attachMinus expected row with
  | case1 => exact h
  | case2 n rest ih =>
      have hrest : identifier x ∈ attachMinus false rest := by simpa using h
      exact List.mem_cons_of_mem _ (List.mem_cons_of_mem _ (ih hrest))
  | case3 expected token rest hjoin ih =>
      rcases List.mem_cons.1 h with rfl | hrest
      · exact List.mem_cons_self
      · exact List.mem_cons_of_mem _ (ih hrest)

/-! ## Canonical rows -/

/-- What is settled stays settled further on in the row. -/
theorem Settled.after (base : List Token) {front row : List Token}
    (h : Settled (awaitsAfter base) (front ++ row)) :
    Settled (awaitsAfter (base ++ front)) row := by
  induction front generalizing base with
  | nil => simpa using h
  | cons token front ih =>
      have hrest : Settled (awaitsAfter (base ++ [token])) (front ++ row) := by
        rw [awaitsAfter_append]
        exact (settled_cons_iff.1 h).2.2
      simpa using ih (base ++ [token]) hrest

theorem Canonical.settled_after (front : List Token) {row : List Token}
    (h : Canonical (front ++ row)) :
    Settled (awaitsAfter front) row := by
  induction row generalizing front with
  | nil => trivial
  | cons token rest ih =>
      have hrest : Settled token.awaitsOperand rest := by
        have hnext : Canonical ((front ++ [token]) ++ rest) := by simpa using h
        have hsettled := ih (front ++ [token]) hnext
        rwa [awaitsAfter_append] at hsettled
      refine settled_cons_iff.2 ⟨?_, ?_, hrest⟩
      · intro n htoken hn
        have hadmits := h.negative front n rest (by rw [htoken]) hn
        rw [awaitsAfter]
        cases hlast : front.getLast? with
        | none => rfl
        | some last =>
            rw [hlast] at hadmits
            cases last with
            | operator op => rfl
            | leftParen => rfl
            | _ => exact hadmits
      · intro hexpected htoken n hhead
        obtain ⟨back, rfl⟩ := List.head?_eq_some_iff.1 hhead
        exact h.attached front n back (by rw [htoken]) hexpected

theorem isSign_eq_false_of_admitsNegative {t : Token} (h : t.admitsNegative) :
    t.isSign = false := by
  cases t with
  | operator op => cases op <;> simp_all [admitsNegative, isSign]
  | _ => rfl

theorem admitsNegative_of_awaitsOperand {t : Token} (h : t.awaitsOperand)
    (hsign : t.isSign = false) : t.admitsNegative := by
  cases t with
  | operator op => cases op <;> simp_all [admitsNegative, isSign]
  | leftParen => rfl
  | _ => cases h

theorem startsWithSign_of_isSign {t : Token} (h : t.isSign) : t.startsWithSign := by
  cases t with
  | number n => cases h
  | _ => exact h

/-- **Canonical rows, locally.**  Whether a row is canonical shows at its names, at its
pairs of neighbours and at its minus signs. -/
theorem canonical_iff {row : List Token} :
    Canonical row ↔ (∀ x, identifier x ∈ row → x.isIdentifier) ∧ row.IsChain Parted ∧
      Settled true row := by
  constructor
  · intro h
    refine ⟨h.letters, ?_, Canonical.settled_after [] h⟩
    rw [List.isChain_iff_forall_rel_of_append_cons_cons]
    intro s t front back hsplit
    refine ⟨?_, ?_, ?_⟩
    · intro x y hnames
      obtain ⟨rfl, rfl⟩ := hnames
      exact h.names front x y back hsplit
    · intro m n hnumbers
      obtain ⟨rfl, rfl⟩ := hnumbers
      exact h.numbers front m n back hsplit
    · intro hsigns
      obtain ⟨hs, ht⟩ := hsigns
      cases t with
      | number n =>
          have hfront : row = (front ++ [s]) ++ number n :: back := by simp [hsplit]
          have hlast := h.negative (front ++ [s]) n back hfront (of_decide_eq_true ht)
          have hadmits : s.admitsNegative := by simpa using hlast
          simp [isSign_eq_false_of_admitsNegative hadmits] at hs
      | _ => exact h.signs front s _ back hsplit ⟨hs, ht⟩
  · intro h
    obtain ⟨hletters, hchain, hsettled⟩ := h
    have hparted := List.isChain_iff_forall_rel_of_append_cons_cons.1 hchain
    have hafter : ∀ front back, row = front ++ back → Settled (awaitsAfter front) back := by
      intro front back hsplit
      exact Settled.after [] (by rw [awaitsAfter_nil, ← hsplit]; exact hsettled)
    refine ⟨hletters, ?_, ?_, ?_, ?_, ?_⟩
    · intro front x y back hsplit
      exact (hparted hsplit).names x y ⟨rfl, rfl⟩
    · intro front m n back hsplit
      exact (hparted hsplit).numbers m n ⟨rfl, rfl⟩
    · intro front s t back hsplit hsigns
      exact (hparted hsplit).signs ⟨hsigns.1, startsWithSign_of_isSign hsigns.2⟩
    · intro front n back hsplit hn
      have hexpected : awaitsAfter front = true := (hafter front _ hsplit).1 hn
      rcases List.eq_nil_or_concat' front with rfl | ⟨base, s, rfl⟩
      · rfl
      · rw [awaitsAfter_append] at hexpected
        have hcut : row = base ++ s :: number n :: back := by simp [hsplit]
        have hst : Parted s (number n) := hparted hcut
        have hsign : s.isSign = false := by
          cases hs : s.isSign with
          | false => rfl
          | true => exact absurd ⟨hs, decide_eq_true hn⟩ hst.signs
        simpa using admitsNegative_of_awaitsOperand hexpected hsign
    · intro front n back hsplit hexpected
      have hsub := (settled_cons_iff.1 (hafter front _ hsplit)).2.1
      exact hsub hexpected rfl n rfl

/-- **Joining the minus signs of a raw row makes it canonical.** -/
theorem RawRow.canonical_attachMinus {row : List Token} (h : RawRow row) :
    Canonical (attachMinus true row) := by
  refine canonical_iff.2 ⟨?_, ?_, settled_attachMinus h⟩
  · intro x hx
    exact h.raw (identifier x) (identifier_mem_of_attachMinus hx)
  · have hstart : (leftParen :: row).IsChain Parted :=
      h.parted.cons fun t _ => ⟨by simp, by simp, by simp [isSign]⟩
    exact (attachMinus_isChain rfl hstart).tail

theorem canonical_of_tokenize {source : Text} {tokens : List Token}
    (h : tokenize source = .ok tokens) : Canonical tokens := by
  obtain ⟨row, hlex, rfl⟩ := tokenize_eq_ok_iff.1 h
  have hrow : RawRow row := rawRow_of_lex (Text.collapse_isChain _) hlex
  exact hrow.canonical_attachMinus

/-! ## Writing a canonical row -/

theorem render_of_neg {n : Int} (h : n < 0) :
    (number n).render = Operator.sub.symbol :: (number (-n)).render := by
  cases n with
  | ofNat n => exact absurd h (by simp)
  | negSucc n => rfl

theorem spell_signApart (row : List Token) : spell (row.flatMap signApart) = spell row := by
  have hone : ∀ t : Token, spell (signApart t) = t.render := by
    intro t
    cases t with
    | number n =>
        by_cases hn : n < 0
        · rw [render_of_neg hn, signApart, if_pos hn]
          simp [spell, render]
        · simp [signApart, hn, spell]
    | _ => simp [signApart, spell]
  rw [spell, List.flatMap_assoc]
  exact congrArg (row.flatMap ·) (funext hone)

/-- What stands at the two ends of a token whose sign is apart. -/
theorem signApart_ends (t : Token) :
    (∀ x ∈ (signApart t).getLast?, (∃ m n, t = number m ∧ x = number n) ∨ x = t) ∧
      ∀ y ∈ (signApart t).head?, (∃ n, n < 0 ∧ t = number n ∧ y = operator .sub) ∨ y = t := by
  by_cases hnumber : ∀ n, t ≠ number n
  · simp [signApart_of_ne_number hnumber]
  · obtain ⟨n, rfl⟩ : ∃ n, t = number n := by simpa using hnumber
    by_cases hn : n < 0 <;> simp [signApart, hn]

theorem raw_of_mem_signApart {s t : Token} (h : s ∈ signApart t)
    (hletters : ∀ x, t = identifier x → x.isIdentifier) : s.Raw := by
  cases t with
  | number n =>
      by_cases hn : n < 0
      · rw [signApart, if_pos hn] at h
        rcases List.mem_cons.1 h with rfl | hs
        · trivial
        · have heq : s = number (-n) := by simpa using hs
          rw [heq]
          exact Int.neg_nonneg_of_nonpos (Int.le_of_lt hn)
      · have heq : s = number n := by simpa [signApart, hn] using h
        rw [heq]
        exact Int.not_lt.1 hn
  | identifier name =>
      have heq : s = identifier name := by simpa [signApart] using h
      rw [heq]
      exact hletters name rfl
  | _ =>
      have heq := List.mem_singleton.1 h
      rw [heq]
      trivial

theorem raw_of_mem_flatMap_signApart {row : List Token}
    (hletters : ∀ x, identifier x ∈ row → x.isIdentifier) :
    ∀ s ∈ row.flatMap signApart, s.Raw := by
  intro s hs
  obtain ⟨t, ht, hst⟩ := List.mem_flatMap.1 hs
  exact raw_of_mem_signApart hst fun x hx => hletters x (hx ▸ ht)

/-- A row whose names are letters has no blanks when it is written. -/
theorem stripBlanks_spell_of_letters {row : List Token}
    (hletters : ∀ x, identifier x ∈ row → x.isIdentifier) :
    (spell row).stripBlanks = spell row := by
  rw [← spell_signApart]
  exact stripBlanks_spell (raw_of_mem_flatMap_signApart hletters)

/-- Parted neighbours are still parted after the signs of negative numbers were taken off. -/
theorem rawRow_signApart {row : List Token} (hletters : ∀ x, identifier x ∈ row → x.isIdentifier)
    (hparted : row.IsChain Parted) : RawRow (row.flatMap signApart) := by
  refine ⟨raw_of_mem_flatMap_signApart hletters, ?_⟩
  have hnil : [] ∉ row.map signApart := by
    intro hmem
    obtain ⟨t, -, hempty⟩ := List.mem_map.1 hmem
    cases t with
    | number n =>
        by_cases hn : n < 0 <;> simp [signApart, hn] at hempty
    | _ => simp [signApart] at hempty
  rw [List.flatMap_def, List.isChain_flatten hnil, List.isChain_map]
  constructor
  · intro part hpart
    obtain ⟨t, -, rfl⟩ := List.mem_map.1 hpart
    cases t with
    | number n =>
        by_cases hn : n < 0
        · rw [signApart, if_pos hn, List.isChain_pair]
          refine ⟨by simp, by simp, fun hsigns => ?_⟩
          have hpositive : -n < 0 := of_decide_eq_true hsigns.2
          omega
        · simp [signApart, hn]
    | _ => simp [signApart]
  · refine hparted.imp fun s t hst x hx y hy => ?_
    rcases (signApart_ends s).1 x hx with ⟨m, n, rfl, rfl⟩ | rfl
    · rcases (signApart_ends t).2 y hy with ⟨k, -, -, rfl⟩ | rfl
      · exact ⟨by simp, by simp, by simp [isSign]⟩
      · refine ⟨by simp, ?_, by simp [isSign]⟩
        intro i j hnumbers
        exact hst.numbers m j ⟨rfl, hnumbers.2⟩
    · rcases (signApart_ends t).2 y hy with ⟨k, hk, rfl, rfl⟩ | rfl
      · refine ⟨by simp, by simp, ?_⟩
        intro hsigns
        exact hst.signs ⟨hsigns.1, decide_eq_true hk⟩
      · exact hst

/-- A text that collapses to the spelling of a canonical row is read as that row. -/
theorem Canonical.tokenize_of_collapse {row : List Token} (h : Canonical row) {text : Text}
    (htext : text.stripBlanks.collapse = spell row) : tokenize text = .ok row := by
  obtain ⟨hletters, hparted, hsettled⟩ := canonical_iff.1 h
  have hraw : RawRow (row.flatMap signApart) := rawRow_signApart hletters hparted
  rw [← spell_signApart] at htext
  rw [hraw.tokenize_of_collapse htext, attachMinus_signApart hsettled]

theorem Canonical.collapse_spell {row : List Token} (h : Canonical row) :
    (spell row).stripBlanks.collapse = spell row := by
  obtain ⟨hletters, hparted, -⟩ := canonical_iff.1 h
  rw [stripBlanks_spell_of_letters hletters, ← spell_signApart]
  exact (rawRow_signApart hletters hparted).collapse_spell

/-- **A canonical row that is written without a gap is read as itself.** -/
theorem Canonical.tokenize_spell {row : List Token} (h : Canonical row) :
    tokenize (spell row) = .ok row :=
  h.tokenize_of_collapse h.collapse_spell

/-- The spaces between tokens are all that stripping has to take away. -/
theorem stripBlanks_renderAll (row : List Token) :
    (renderAll row).stripBlanks = (spell row).stripBlanks := by
  have hspace : Text.stripBlanks [' '] = [] := by decide
  induction row with
  | nil => rfl
  | cons t rest ih =>
      cases rest with
      | nil => simp [renderAll, spell]
      | cons s rest =>
          have hcut : renderAll (t :: s :: rest) =
              t.render ++ ([' '] ++ renderAll (s :: rest)) := by
            simp [renderAll, List.intercalate_cons_cons]
          have hspell : spell (t :: s :: rest) = t.render ++ spell (s :: rest) := rfl
          rw [hcut, hspell, Text.stripBlanks_append, Text.stripBlanks_append,
            Text.stripBlanks_append, hspace, ih, List.nil_append]

theorem Canonical.tokenize_renderAll {row : List Token} (h : Canonical row) :
    tokenize (renderAll row) = .ok row := by
  refine h.tokenize_of_collapse ?_
  rw [stripBlanks_renderAll, h.collapse_spell]

/-- **The rows that can be read are the canonical ones, and reading undoes writing.**
Whatever is read from a text is canonical; a canonical row, written with a space between
any two tokens or without a gap, is read as itself; so what was read from a text is read
again from what it is written as. -/
theorem read_rows_are_canonical :
    (∀ source tokens, tokenize source = .ok tokens → Canonical tokens) ∧
      (∀ tokens, Canonical tokens →
        tokenize (renderAll tokens) = .ok tokens ∧ tokenize (spell tokens) = .ok tokens) ∧
      ∀ source tokens, tokenize source = .ok tokens →
        tokenize (renderAll tokens) = .ok tokens ∧ tokenize (spell tokens) = .ok tokens := by
  refine ⟨?_, ?_, ?_⟩
  · intro source tokens h
    exact canonical_of_tokenize h
  · intro tokens h
    exact ⟨h.tokenize_renderAll, h.tokenize_spell⟩
  · intro source tokens h
    have hcanonical := canonical_of_tokenize h
    exact ⟨hcanonical.tokenize_renderAll, hcanonical.tokenize_spell⟩

/-- A text with a run of signs, leading zeros and a minus sign in front of an operand. -/
theorem read_rows_are_canonical_sample :
    tokenize "-03 - -4*-x/-0".toList = .ok [number (-3), operator .add, number 4, operator .mul,
        operator .sub, identifier ['x'], operator .div, number 0] ∧
      Canonical [number (-3), operator .add, number 4, operator .mul, operator .sub,
        identifier ['x'], operator .div, number 0] ∧
      tokenize "-3+4*-x/0".toList = .ok [number (-3), operator .add, number 4, operator .mul,
        operator .sub, identifier ['x'], operator .div, number 0] :=
  have hread : tokenize "-03 - -4*-x/-0".toList = .ok [number (-3), operator .add, number 4,
      operator .mul, operator .sub, identifier ['x'], operator .div, number 0] := rfl
  have hcanonical := read_rows_are_canonical.1 _ _ hread
  ⟨hread, hcanonical, (read_rows_are_canonical.2.1 _ hcanonical).2⟩

end Calculator.Token
