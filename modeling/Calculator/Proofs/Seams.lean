import Calculator.Balanced
import Calculator.Proofs.Arrangement
import Calculator.Proofs.RoundTrip

/-!
# Where a text is cut at a parenthesis

A parenthesis is no blank, no sign, no letter and no digit, so nothing reaches
across it: neither a run of signs nor a run of letters or digits, and a minus
sign does not join a number on its other side.  What stands on its two sides is
read apart, and behind an opening parenthesis exactly as at the start of a text.

For the same reasons no parenthesis is lost and none is added on the way from a
text to its tokens, so the one is balanced exactly if the other is.

* `pieces_append_paren` — the pieces of a text with a parenthesis in it;
* `attachMinus_append_paren` — and where its minus signs join a number;
* `tokenize_group`, `tokenize_group_error` — a text in parentheses;
* `tokenize_between_groups` — two of them with an operator in between;
* `parens_of_tokenize`, `balanced_iff_of_tokenize` — the parentheses of a text are those of
  its tokens.
-/

namespace Calculator

open Token

/-- A text in parentheses. -/
def Text.group (text : Text) : Text :=
  '(' :: text ++ [')']

/-- A row of tokens in parentheses. -/
def Token.group (tokens : List Token) : List Token :=
  leftParen :: tokens ++ [rightParen]

/-! ## What a parenthesis keeps apart -/

namespace Text

/-- What is laid in front of a text does not reach beyond a character that is no sign. -/
theorem putChar_append {d : Char} (hd : Sign.ofSymbol? d = none) (c : Char) (front back : Text) :
    putChar c (front ++ d :: back) = putChar c front ++ d :: back := by
  cases hc : Sign.ofSymbol? c with
  | none => simp [putChar, hc]
  | some s =>
      rw [putChar_of_sign hc, putChar_of_sign hc]
      rcases leading_sign_or_none front with ⟨t, after, rfl⟩ | hhead
      · rw [List.cons_append, putSign_symbol_cons, putSign_symbol_cons, List.cons_append]
      · have hall : ∀ b ∈ (front ++ d :: back).head?, Sign.ofSymbol? b = none := by
          cases front with
          | nil => simpa using hd
          | cons b front => exact hhead
        rw [putSign_of_head hall, putSign_of_head hhead, List.cons_append]

/-- The two sides of a character that is no sign are collapsed apart. -/
theorem collapse_append_cons {d : Char} (hd : Sign.ofSymbol? d = none) (front back : Text) :
    collapse (front ++ d :: back) = collapse front ++ d :: collapse back := by
  induction front with
  | nil => exact collapse_of_not_sign hd back
  | cons c front ih =>
      rw [List.cons_append, collapse_cons, ih, putChar_append hd, collapse_cons]

/-- A character that is neither letter nor digit is a run of its own. -/
theorem runs_append_cons {d : Char} (halpha : d.isAlpha = false) (hdigit : d.isDigit = false)
    (front back : Text) : runs (front ++ d :: back) = runs front ++ [d] :: runs back := by
  have hapart : ∀ c, joined c d = false := fun c => by simp [joined, halpha, hdigit]
  have hbehind : (d :: back).splitBy joined = [[d]] ++ back.splitBy joined := by
    refine List.splitBy_append (l := [d]) fun x hx y _ => ?_
    rw [List.getLast?_singleton, Option.mem_some_iff] at hx
    rw [← hx, joined_comm, hapart]
  rw [runs, List.splitBy_append_cons back fun x _ => hapart x, hbehind]
  rfl

end Text

/-- The pieces of a text that is stripped and collapsed. -/
def pieces (source : Text) : List Piece :=
  lex source.stripBlanks.collapse

theorem ofRun?_mark {c : Char} {mark : Token} (h : ofMark? c = some mark) :
    Piece.ofRun? [c] = some (.token mark) := by
  obtain ⟨halpha, hdigit, -⟩ := mark_class h
  simp [Piece.ofRun?, halpha, hdigit, h]

theorem lex_append_mark {c : Char} {mark : Token} (h : ofMark? c = some mark)
    (front back : Text) : lex (front ++ c :: back) = lex front ++ .token mark :: lex back := by
  obtain ⟨halpha, hdigit, -⟩ := mark_class h
  rw [lex, Text.runs_append_cons halpha hdigit, List.filterMap_append,
    List.filterMap_cons_some (ofRun?_mark h)]
  rfl

/-- **The two sides of a parenthesis are cut into pieces apart.** -/
theorem pieces_append_paren {c : Char} {paren : Token} (h : ofMark? c = some paren)
    (hparen : paren.isParen) (front back : Text) :
    pieces (front ++ c :: back) = pieces front ++ .token paren :: pieces back := by
  have hsign : Sign.ofSymbol? c = none := by
    rcases mark_cases h with ⟨rfl, -⟩ | ⟨rfl, -⟩ | ⟨op, -, rfl⟩
    · rfl
    · rfl
    · cases hparen
  have hstrip : (front ++ c :: back).stripBlanks =
      front.stripBlanks ++ c :: back.stripBlanks := by
    simp [Text.stripBlanks, (mark_class h).2.2]
  rw [pieces, hstrip, Text.collapse_append_cons hsign, lex_append_mark h]
  rfl

theorem pieces_symbol (op : Operator) : pieces [op.symbol] = [.token (.operator op)] := by
  cases op <;> rfl

/-- **No minus sign joins a number across a parenthesis.** -/
theorem attachMinus_append_paren {paren : Token} (h : paren.isParen) (expected : Bool)
    (front back : List Token) :
    attachMinus expected (front ++ paren :: back) =
      attachMinus expected front ++ paren :: attachMinus paren.awaitsOperand back := by
  induction expected, front using attachMinus.induct with
  | case1 expected =>
      rw [List.nil_append, attachMinus_nil, List.nil_append]
      refine attachMinus_of_ne_sub ?_ expected back
      rintro rfl
      cases h
  | case2 n rest ih =>
      rw [List.cons_append, List.cons_append, attachMinus_sub_number, ih,
        attachMinus_sub_number, List.cons_append]
  | case3 expected token rest hjoin ih =>
      have hrest : attachMinus expected (token :: rest) =
          token :: attachMinus token.awaitsOperand rest :=
        attachMinus_cons fun hexpected hsub n hhead => by
          obtain ⟨after, hafter⟩ := List.head?_eq_some_iff.1 hhead
          exact hjoin n after hexpected hsub hafter
      have hall : attachMinus expected (token :: (rest ++ paren :: back)) =
          token :: attachMinus token.awaitsOperand (rest ++ paren :: back) :=
        attachMinus_cons fun hexpected hsub n hhead => by
          cases rest with
          | nil =>
              have hparen : paren = number n := Option.some.inj hhead
              rw [hparen] at h
              cases h
          | cons next after =>
              have hnext : next = number n := Option.some.inj hhead
              exact hjoin n after hexpected hsub (by rw [hnext])
      rw [List.cons_append, hall, hrest, ih, List.cons_append]

/-! ## Texts in parentheses -/

theorem pieces_group_append (s back : Text) :
    pieces (s.group ++ back) =
      .token .leftParen :: pieces s ++ .token .rightParen :: pieces back := by
  have htext : s.group ++ back = [] ++ '(' :: (s ++ ')' :: back) := by simp [Text.group]
  rw [htext, pieces_append_paren rfl rfl, pieces_append_paren rfl rfl]
  rfl

theorem pieces_group (s : Text) :
    pieces s.group = .token .leftParen :: pieces s ++ [.token .rightParen] := by
  have hall := pieces_group_append s []
  rwa [List.append_nil] at hall

theorem pieces_symbol_group (op : Operator) (t : Text) :
    pieces (op.symbol :: t.group) = .token (.operator op) :: pieces t.group := by
  have htext : op.symbol :: t.group = [op.symbol] ++ '(' :: (t ++ [')']) := rfl
  have hgroup : pieces t.group = .token .leftParen :: pieces (t ++ [')']) :=
    pieces_append_paren rfl rfl [] (t ++ [')'])
  rw [htext, pieces_append_paren rfl rfl, pieces_symbol, hgroup]
  rfl

/-- Minus signs join numbers in a group as they do at the start, and behind it as behind an
operand. -/
theorem attachMinus_group_append (raw back : List Token) :
    attachMinus true (group raw ++ back) =
      group (attachMinus true raw) ++ attachMinus false back := by
  have hrow : group raw ++ back = [] ++ leftParen :: (raw ++ rightParen :: back) := by
    simp [group]
  rw [hrow, attachMinus_append_paren rfl, awaitsOperand, attachMinus_append_paren rfl,
    awaitsOperand]
  simp [group]

/-- **A text in parentheses has the tokens of the text, in parentheses.** -/
theorem tokenize_group {s : Text} {tokens : List Token} (h : tokenize s = .ok tokens) :
    tokenize s.group = .ok (group tokens) := by
  obtain ⟨raw, hraw, rfl⟩ := tokenize_eq_ok_iff.1 h
  refine tokenize_eq_ok_iff.2 ⟨group raw, ?_, ?_⟩
  · have hpieces := pieces_group s
    rw [pieces, pieces, hraw] at hpieces
    rw [hpieces]
    simp [group]
  · have hattach := attachMinus_group_append raw []
    simpa using hattach.symm

/-- A text without tokens has none in parentheses, for the same character. -/
theorem tokenize_group_error {s : Text} {e : ParseError} (h : tokenize s = .error e) :
    tokenize s.group = .error e := by
  rw [tokenize_eq_error_iff, acceptAll_eq_error_iff] at h ⊢
  obtain ⟨tokens, c, rest, hpieces, he⟩ := h
  have hgroup := pieces_group s
  rw [pieces, pieces, hpieces] at hgroup
  exact ⟨leftParen :: tokens, c, rest ++ [.token .rightParen], by rw [hgroup]; simp, he⟩

/-- **An operator between two texts in parentheses.** -/
theorem tokenize_between_groups {s t : Text} {first second : List Token}
    (hs : tokenize s = .ok first) (ht : tokenize t = .ok second) (op : Operator) :
    tokenize (s.group ++ op.symbol :: t.group) =
      .ok (group first ++ operator op :: group second) := by
  obtain ⟨raw, hraw, rfl⟩ := tokenize_eq_ok_iff.1 hs
  obtain ⟨raw', hraw', rfl⟩ := tokenize_eq_ok_iff.1 ht
  refine tokenize_eq_ok_iff.2 ⟨group raw ++ operator op :: group raw', ?_, ?_⟩
  · have hpieces := pieces_group_append s (op.symbol :: t.group)
    rw [pieces_symbol_group, pieces_group t, pieces, pieces, pieces, hraw, hraw'] at hpieces
    rw [hpieces]
    simp [group]
  · have hback : attachMinus true (group raw') = group (attachMinus true raw') := by
      have hattach := attachMinus_group_append raw' []
      simpa using hattach
    rw [attachMinus_group_append, attachMinus_false_cons, awaitsOperand, hback]

/-! ## The parentheses of a text -/

/-- The parenthesis that a character writes, if it writes one. -/
def Token.ofParen? (c : Char) : Option Token :=
  (ofMark? c).filter isParen

/-- The parentheses of a text, in order. -/
def Text.parens (text : Text) : List Token :=
  text.filterMap ofParen?

theorem ofParen?_eq_some_iff {c : Char} {paren : Token} :
    ofParen? c = some paren ↔ ofMark? c = some paren ∧ paren.isParen := by
  rw [ofParen?, Option.filter_eq_some_iff]

theorem ofParen?_eq_none {c : Char} (h : ∀ paren, ofMark? c = some paren → ¬paren.isParen) :
    ofParen? c = none := by
  cases hmark : ofMark? c with
  | none => simp [ofParen?, hmark]
  | some mark => simpa [ofParen?, hmark] using h mark hmark

namespace Text

theorem parens_cons (c : Char) (text : Text) : parens (c :: text) = parens [c] ++ parens text :=
  List.filterMap_append (l := [c])

theorem parens_stripBlanks (text : Text) : text.stripBlanks.parens = text.parens := by
  rw [parens, stripBlanks, List.filterMap_filter]
  refine List.filterMap_congr fun c _ => ?_
  cases hc : isBlank c with
  | false => rfl
  | true =>
      refine (ofParen?_eq_none fun paren hmark => ?_).symm
      simp [(mark_class hmark).2.2] at hc

theorem parens_symbol_cons (s : Sign) (text : Text) : parens (s.symbol :: text) = parens text := by
  cases s <;> rfl

theorem parens_putChar (c : Char) (text : Text) :
    (putChar c text).parens = parens (c :: text) := by
  cases hc : Sign.ofSymbol? c with
  | none => simp [putChar, hc]
  | some s =>
      rw [putChar_of_sign hc, Sign.ofSymbol?_eq_some_iff.1 hc, parens_symbol_cons]
      rcases leading_sign_or_none text with ⟨t, after, rfl⟩ | hhead
      · rw [putSign_symbol_cons, parens_symbol_cons, parens_symbol_cons]
      · rw [putSign_of_head hhead, parens_symbol_cons]

theorem parens_collapse (text : Text) : text.collapse.parens = text.parens := by
  induction text with
  | nil => rfl
  | cons c text ih => rw [collapse_cons, parens_putChar, parens_cons, ih, ← parens_cons]

end Text

/-- The parentheses of a run are those of the token that it is read as. -/
theorem parens_of_ofRun? {run : Text} (hrun : run.IsChain fun a b => Text.joined a b)
    {t : Token} (h : Piece.ofRun? run = some (.token t)) : run.parens = [t].filter isParen := by
  rcases ofRun?_eq_token hrun h with ⟨hname, rfl⟩ | ⟨hnumeral, rfl⟩ | ⟨c, rfl, hmark⟩
  · refine List.filterMap_eq_nil_iff.2 fun c hc => ofParen?_eq_none fun paren hmark => ?_
    have hletter := List.all_eq_true.1 (Bool.and_eq_true_iff.1 hname).2 c hc
    simp [(mark_class hmark).1] at hletter
  · refine List.filterMap_eq_nil_iff.2 fun c hc => ofParen?_eq_none fun paren hmark => ?_
    have hdigit := List.all_eq_true.1 (Bool.and_eq_true_iff.1 hnumeral).2 c hc
    simp [(mark_class hmark).2.1] at hdigit
  · rcases mark_cases hmark with ⟨rfl, rfl⟩ | ⟨rfl, rfl⟩ | ⟨op, rfl, rfl⟩
    · rfl
    · rfl
    · cases op <;> rfl

theorem parens_flatten {runs : List Text} {row : List Token}
    (hruns : ∀ run ∈ runs, run.IsChain fun a b => Text.joined a b)
    (h : runs.map Piece.ofRun? = row.map (some ∘ Piece.token)) :
    Text.parens runs.flatten = row.filter isParen := by
  induction runs generalizing row with
  | nil =>
      rw [List.map_nil, eq_comm, List.map_eq_nil_iff] at h
      rw [h]
      rfl
  | cons run runs ih =>
      cases row with
      | nil => cases h
      | cons t row =>
          obtain ⟨hhead, htail⟩ := List.cons.inj h
          have hrun := parens_of_ofRun? (hruns run List.mem_cons_self) hhead
          have hrest := ih (fun r hr => hruns r (List.mem_cons_of_mem run hr)) htail
          rw [List.flatten_cons, Text.parens, List.filterMap_append]
          calc run.parens ++ Text.parens runs.flatten
              = [t].filter isParen ++ row.filter isParen := by rw [hrun, hrest]
            _ = (t :: row).filter isParen := (List.filter_append [t] row).symm

/-- No parenthesis joins a number. -/
theorem filter_attachMinus (expected : Bool) (row : List Token) :
    (attachMinus expected row).filter isParen = row.filter isParen := by
  fun_induction attachMinus expected row with
  | case1 => rfl
  | case2 n rest ih => simpa [isParen] using ih
  | case3 expected token rest hjoin ih => rw [List.filter_cons, ih, ← List.filter_cons]

/-- **The parentheses of a text are those of its tokens.** -/
theorem parens_of_tokenize {source : Text} {tokens : List Token}
    (h : tokenize source = .ok tokens) : tokens.filter isParen = source.parens := by
  obtain ⟨raw, hlex, rfl⟩ := tokenize_eq_ok_iff.1 h
  have hruns : ∀ run ∈ source.stripBlanks.collapse.runs,
      run.IsChain fun a b => Text.joined a b :=
    fun run hrun => List.isChain_of_mem_splitBy hrun
  calc (attachMinus true raw).filter isParen
      = raw.filter isParen := filter_attachMinus true raw
    _ = Text.parens source.stripBlanks.collapse.runs.flatten :=
        (parens_flatten hruns (map_ofRun?_of_lex hlex)).symm
    _ = Text.parens source.stripBlanks.collapse := by rw [Text.runs, List.flatten_splitBy]
    _ = source.parens := by rw [Text.parens_collapse, Text.parens_stripBlanks]

/-- **A text is balanced exactly if its tokens are.** -/
theorem balanced_iff_of_tokenize {source : Text} {tokens : List Token}
    (h : tokenize source = .ok tokens) :
    Balanced leftParen rightParen tokens ↔ Balanced '(' ')' source := by
  have hparen : ∀ {c : Char} {paren : Token}, ofParen? c = some paren →
      ∀ x, ofParen? x = some paren ↔ x = c := by
    intro c paren hc x
    refine ⟨fun hx => ?_, fun hx => hx ▸ hc⟩
    have hsame := (render_of_ofMark? (ofParen?_eq_some_iff.1 hx).1).symm.trans
      (render_of_ofMark? (ofParen?_eq_some_iff.1 hc).1)
    exact List.singleton_inj.1 hsame
  have htokens : Balanced leftParen rightParen tokens ↔
      Balanced leftParen rightParen (tokens.filter isParen) := by
    rw [← List.filterMap_eq_filter]
    exact (balanced_filterMap_iff (by simp [isParen]) (by simp [isParen])).symm
  rw [htokens, parens_of_tokenize h]
  exact balanced_filterMap_iff (hparen rfl) (hparen rfl)

end Calculator
