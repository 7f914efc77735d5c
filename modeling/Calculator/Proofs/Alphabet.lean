import Calculator.Proofs.Pieces
import Calculator.Proofs.Stages

/-!
# The alphabet of expressions, and what reading keeps of a text

An expression may hold blanks, letters, digits, the symbols of the operators and
parentheses.  A text with any other character has no tokens, and the first such
character is told: neither stripping nor collapsing adds, drops or moves one.

Any other text is read whole.  Of its blanks and its runs of signs nothing is
left but what collapsing leaves, and of what is left then the tokens lose two
things only, which are needless to write an integer: zeros in front of a numeral,
and the minus sign of a zero, where a minus sign is part of a number.

* `acceptAll_lex_eq_error_iff`, `find?_collapse` — the first character outside the
  alphabet;
* `tokenize_eq_error_iff_find?` — the texts that have no tokens;
* `spell_attachMinus`, `spell_of_tokenize` — what the tokens of a text are written as.
-/

namespace Calculator

open Token

namespace Text

/-- Whether a token may start with the character. -/
def startsToken (c : Char) : Bool :=
  c.isAlpha || c.isDigit || ['+', '-', '*', '/', '(', ')'].contains c

/-- Whether an expression may hold the character. -/
def inAlphabet (c : Char) : Bool :=
  isBlank c || startsToken c

/-- Whether a number may start behind the character, or at the start of a text. -/
def admitsNumber (before : Option Char) : Bool :=
  before.all ['(', '+', '-', '*', '/'].contains

/-- A numeral of nothing but zeros. -/
def isZeros (run : Text) : Bool :=
  run.isNumeral && run.all (· == '0')

/-- What is needed of a run, given the character in front of it and the run behind it: no minus
sign that makes a zero negative, and no zeros in front of a numeral. -/
def needed (before : Option Char) (run : Text) (next : Option Text) : Text :=
  if run = ['-'] ∧ admitsNumber before ∧ next.any isZeros then []
  else if run.isNumeral then Decimal.shorten run
  else run

/-- What is needed of runs, given the character in front of them. -/
def neededRuns : Option Char → List Text → Text
  | _, [] => []
  | before, run :: rest => needed before run rest.head? ++ neededRuns run.getLast? rest

/-- What is needed of a text. -/
def neat (text : Text) : Text :=
  neededRuns none text.runs

example : neat "-00*-07-0(-0)".toList = "0*-7-0(0)".toList := by decide

end Text

/-! ## The first character outside the alphabet -/

open Text

theorem ofMark?_eq_none_iff {c : Char} :
    ofMark? c = none ↔ ['+', '-', '*', '/', '(', ')'].contains c = false := by
  constructor
  · intro h
    rw [← Bool.not_eq_true]
    intro hmark
    simp only [List.contains_iff_mem, List.mem_cons, List.not_mem_nil, or_false] at hmark
    rcases hmark with rfl | rfl | rfl | rfl | rfl | rfl <;> cases h
  · intro h
    cases hmark : ofMark? c with
    | none => rfl
    | some mark =>
        rcases mark_cases hmark with ⟨rfl, -⟩ | ⟨rfl, -⟩ | ⟨op, rfl, -⟩
        · cases h
        · cases h
        · cases op <;> cases h

theorem startsToken_of_mark {c : Char} {mark : Token} (h : ofMark? c = some mark) :
    startsToken c := by
  rw [startsToken, Bool.or_eq_true]
  right
  by_contra hnone
  rw [ofMark?_eq_none_iff.2 (by simpa using hnone)] at h
  cases h

/-- **The pieces of a text are refused** for the first character that starts no token. -/
theorem acceptAll_lex_eq_error_iff {text : Text} {e : ParseError} :
    acceptAll (lex text) = .error e ↔
      ∃ c, text.find? (fun c => !startsToken c) = some c ∧ e = .strayCharacter c := by
  induction text using run_induction with
  | nil => simp
  | name x rest hx hrest ih =>
      have hnone : x.find? (fun c => !startsToken c) = none := by
        rw [List.find?_eq_none]
        intro c hc
        simp [startsToken, (isIdentifier_iff.1 hx).2 c hc]
      rw [lex_name_append hx hrest, acceptAll_token_cons, Except.map_eq_error_iff, ih,
        List.find?_append, hnone, Option.none_or]
  | numeral digits rest hdigits hrest ih =>
      have hnone : digits.find? (fun c => !startsToken c) = none := by
        rw [List.find?_eq_none]
        intro c hc
        simp [startsToken, isDigit_of_mem_numeral hdigits hc]
      rw [lex_numeral_append hdigits hrest, acceptAll_token_cons, Except.map_eq_error_iff, ih,
        List.find?_append, hnone, Option.none_or]
  | mark c rest halpha hdigit ih =>
      cases hmark : ofMark? c with
      | some mark =>
          rw [lex_mark_cons hmark, acceptAll_token_cons, Except.map_eq_error_iff, ih,
            List.find?_cons_of_neg (by simp [startsToken_of_mark hmark])]
      | none =>
          have hstray : startsToken c = false := by
            simp only [startsToken, halpha, hdigit, ofMark?_eq_none_iff.1 hmark, Bool.or_self]
          rw [lex_stray_cons halpha hdigit hmark, acceptAll_stray_cons,
            List.find?_cons_of_pos (by simp [hstray])]
          simp [eq_comm]

theorem find?_putChar {p : Char → Bool} (hp : ∀ s : Sign, p s.symbol = false) (c : Char)
    (text : Text) : (putChar c text).find? p = (c :: text).find? p := by
  cases hc : Sign.ofSymbol? c with
  | none => rw [putChar, hc]
  | some s =>
      obtain rfl := Sign.ofSymbol?_eq_some_iff.1 hc
      rw [putChar_of_sign hc]
      obtain ⟨t, after, rfl⟩ | hhead := leading_sign_or_none text
      · simp [putSign_symbol_cons, hp]
      · rw [putSign_of_head hhead]

/-- Collapsing does not change which character comes first, of those that are no signs. -/
theorem find?_collapse {p : Char → Bool} (hp : ∀ s : Sign, p s.symbol = false) (text : Text) :
    text.collapse.find? p = text.find? p := by
  induction text with
  | nil => rfl
  | cons c text ih => rw [collapse_cons, find?_putChar hp, List.find?_cons, List.find?_cons, ih]

/-- **The texts that have no tokens**, and the character that is told. -/
theorem tokenize_eq_error_iff_find? {source : Text} {e : ParseError} :
    tokenize source = .error e ↔
      ∃ c, source.find? (fun c => !inAlphabet c) = some c ∧ e = .strayCharacter c := by
  have hsign : ∀ s : Sign, (!startsToken s.symbol) = false := by
    intro s
    cases s <;> rfl
  have hfind : source.stripBlanks.collapse.find? (fun c => !startsToken c) =
      source.find? fun c => !inAlphabet c := by
    rw [find?_collapse hsign, stripBlanks, List.find?_filter]
    refine congrArg (List.find? · source) (funext fun c => ?_)
    cases hblank : isBlank c <;> simp [inAlphabet, hblank]
  rw [tokenize_eq_error_iff, acceptAll_lex_eq_error_iff, hfind]

/-! ## What the tokens of a text are written as -/

/-- A number is expected behind a run exactly if it is expected behind its token. -/
theorem admitsNumber_getLast? {run : Text} (hrun : run.IsChain fun a b => joined a b) {t : Token}
    (h : Piece.ofRun? run = some (.token t)) :
    admitsNumber run.getLast? = t.awaitsOperand := by
  have hclass : ∀ {c : Char}, c.isAlpha ∨ c.isDigit →
      ['(', '+', '-', '*', '/'].contains c = false := by
    intro c hc
    rw [← Bool.not_eq_true]
    intro hmem
    simp only [List.contains_iff_mem, List.mem_cons, List.not_mem_nil, or_false] at hmem
    rcases hmem with rfl | rfl | rfl | rfl | rfl <;> revert hc <;> decide
  rcases ofRun?_eq_token hrun h with ⟨hname, rfl⟩ | ⟨hnumeral, rfl⟩ | ⟨c, rfl, hmark⟩
  · obtain ⟨front, c, rfl, hc⟩ := exists_concat_of_isIdentifier hname
    rw [List.getLast?_concat]
    exact hclass (.inl hc)
  · obtain ⟨hne, hall⟩ := Decimal.isNumeral_iff.1 hnumeral
    rw [List.getLast?_eq_some_getLast hne]
    exact hclass (.inr (hall _ (List.getLast_mem hne)))
  · rcases mark_cases hmark with ⟨rfl, rfl⟩ | ⟨rfl, rfl⟩ | ⟨op, rfl, rfl⟩
    · rfl
    · rfl
    · cases op <;> rfl

/-- A token is written as its run, but for zeros in front. -/
theorem render_eq_of_ofRun? {run : Text} (hrun : run.IsChain fun a b => joined a b) {t : Token}
    (h : Piece.ofRun? run = some (.token t)) :
    t.render = if run.isNumeral then Decimal.shorten run else run := by
  rcases ofRun?_eq_token hrun h with ⟨hname, rfl⟩ | ⟨hnumeral, rfl⟩ | ⟨c, rfl, hmark⟩
  · obtain ⟨c, rest, rfl, hc⟩ := exists_cons_of_isIdentifier hname
    rw [if_neg (by simp [isNumeral, not_isDigit_of_isAlpha hc])]
    rfl
  · rw [if_pos hnumeral]
    exact Decimal.render_value hnumeral
  · rw [if_neg (by simp [isNumeral, (mark_class hmark).2.1]), render_of_ofMark? hmark]

/-- The opposite of a number is written with a minus sign, unless it is zero. -/
theorem render_neg_value {digits : Text} (h : digits.isNumeral) :
    (number (-(Decimal.value digits : Int))).render =
      (if digits.isZeros then [] else ['-']) ++ Decimal.shorten digits := by
  have hzeros : digits.isZeros ↔ Decimal.value digits = 0 := by
    rw [Decimal.value_eq_zero_iff (Decimal.isNumeral_iff.1 h).2]
    simp [isZeros, h]
  rw [← Decimal.render_value h]
  cases hvalue : Decimal.value digits with
  | zero =>
      rw [if_pos (hzeros.2 hvalue)]
      rfl
  | succ n =>
      rw [if_neg (by rw [hzeros, hvalue]; exact Nat.succ_ne_zero n)]
      rfl

theorem singleton_of_ofRun? {run : Text} (hrun : run.IsChain fun a b => joined a b) {op : Operator}
    (h : Piece.ofRun? run = some (.token (operator op))) : run = [op.symbol] := by
  rcases ofRun?_eq_token hrun h with ⟨-, heq⟩ | ⟨-, heq⟩ | ⟨c, rfl, hmark⟩
  · cases heq
  · cases heq
  · exact (render_of_ofMark? hmark).symm

theorem numeral_of_ofRun? {run : Text} (hrun : run.IsChain fun a b => joined a b) {n : Int}
    (h : Piece.ofRun? run = some (.token (number n))) :
    run.isNumeral ∧ n = Decimal.value run := by
  rcases ofRun?_eq_token hrun h with ⟨-, heq⟩ | ⟨hnumeral, heq⟩ | ⟨c, -, hmark⟩
  · cases heq
  · exact ⟨hnumeral, Token.number.inj heq⟩
  · rcases mark_cases hmark with ⟨-, heq⟩ | ⟨-, heq⟩ | ⟨op, -, heq⟩ <;> cases heq

/-- All that a token is written with is needed, unless it is the minus sign of a zero. -/
theorem needed_of_ofRun? {run : Text} (hrun : run.IsChain fun a b => joined a b) {t : Token}
    (h : Piece.ofRun? run = some (.token t)) {before : Option Char} {next : Option Text}
    (hsign : ¬(run = ['-'] ∧ admitsNumber before ∧ next.any isZeros)) :
    needed before run next = t.render := by
  rw [needed, if_neg hsign, render_eq_of_ofRun? hrun h]

/-- **Tokens are written as what is needed of the runs** that they were read from. -/
theorem spell_attachMinus {expected : Bool} {raw : List Token} {runs : List Text}
    {before : Option Char} (hread : runs.map Piece.ofRun? = raw.map (some ∘ Piece.token))
    (hruns : ∀ run ∈ runs, run.IsChain fun a b => joined a b)
    (hbefore : admitsNumber before = expected) :
    spell (attachMinus expected raw) = neededRuns before runs := by
  -- Along the joining of minus signs, one run for each token; a joined number takes two.
  induction expected, raw using attachMinus.induct generalizing runs before with
  | case1 expected =>
      obtain rfl := List.map_eq_nil_iff.1 hread
      rw [attachMinus_nil]
      rfl
  | case2 n rest ih =>
      obtain ⟨sign, tail, rfl, hsign, htail⟩ := List.map_eq_cons_iff.1 hread
      obtain ⟨digits, runs, rfl, hdigits, hrest⟩ := List.map_eq_cons_iff.1 htail
      obtain ⟨hfirst, hothers⟩ := List.forall_mem_cons.1 hruns
      obtain ⟨hsecond, hothers⟩ := List.forall_mem_cons.1 hothers
      obtain rfl : sign = ['-'] := singleton_of_ofRun? hfirst hsign
      obtain ⟨hnumeral, rfl⟩ := numeral_of_ofRun? hsecond hdigits
      have hminus : needed before ['-'] (some digits) =
          if digits.isZeros then [] else ['-'] := by
        simp [needed, hbefore, isNumeral]
      have hkept : needed (some '-') digits runs.head? = Decimal.shorten digits := by
        have hne : digits ≠ ['-'] := by
          rintro rfl
          cases hnumeral
        simp [needed, hne, hnumeral]
      calc spell (attachMinus true (operator .sub :: number (Decimal.value digits) :: rest))
          = (number (-(Decimal.value digits : Int))).render ++ spell (attachMinus false rest) := by
            rw [attachMinus_sub_number]
            rfl
        _ = (if digits.isZeros then [] else ['-']) ++ Decimal.shorten digits ++
              neededRuns digits.getLast? runs := by
            rw [render_neg_value hnumeral,
              ih hrest hothers (admitsNumber_getLast? hsecond hdigits)]
        _ = neededRuns before (['-'] :: digits :: runs) := by
            rw [neededRuns, List.head?_cons, hminus, neededRuns, List.getLast?_singleton, hkept,
              List.append_assoc]
  | case3 expected token rest hjoin ih =>
      obtain ⟨run, runs, rfl, hrun, hrest⟩ := List.map_eq_cons_iff.1 hread
      obtain ⟨hfirst, hothers⟩ := List.forall_mem_cons.1 hruns
      have hstay : ¬(run = ['-'] ∧ admitsNumber before ∧ runs.head?.any isZeros) := by
        rintro ⟨rfl, hadmits, hzeros⟩
        obtain rfl : operator .sub = token := Piece.token.inj (Option.some.inj hrun)
        cases runs with
        | nil => cases hzeros
        | cons digits runs =>
            obtain ⟨next, back, rfl, hnext, -⟩ := List.map_eq_cons_iff.1 hrest.symm
            have hnumeral : digits.isNumeral := (Bool.and_eq_true_iff.1 hzeros).1
            have hnumber : next = number (Decimal.value digits) :=
              Piece.token.inj (Option.some.inj (hnext.trans (ofRun?_numeral hnumeral)))
            exact hjoin _ back (hbefore ▸ hadmits) rfl (by rw [hnumber])
      have hattach : attachMinus expected (token :: rest) =
          token :: attachMinus token.awaitsOperand rest := by
        refine attachMinus_cons fun hexpected hsub n hhead => ?_
        obtain ⟨back, hback⟩ := List.head?_eq_some_iff.1 hhead
        exact hjoin n back hexpected hsub hback
      calc spell (attachMinus expected (token :: rest))
          = token.render ++ spell (attachMinus token.awaitsOperand rest) := by
            rw [hattach]
            rfl
        _ = neededRuns before (run :: runs) := by
            rw [ih hrest hothers (admitsNumber_getLast? hfirst hrun), neededRuns,
              needed_of_ofRun? hfirst hrun hstay]

/-- **What the tokens of a text are written as**: all that is needed of what stripping and
collapsing leave. -/
theorem spell_of_tokenize {source : Text} {tokens : List Token}
    (h : tokenize source = .ok tokens) : spell tokens = source.stripBlanks.collapse.neat := by
  obtain ⟨raw, hraw, rfl⟩ := tokenize_eq_ok_iff.1 h
  exact spell_attachMinus (map_ofRun?_of_lex hraw)
    (fun run hrun => List.isChain_of_mem_splitBy hrun) rfl

/-- **The alphabet is read, and read whole.**  A text has no tokens exactly if it holds a character
other than a blank, a letter, a digit, the symbol of an operator or a parenthesis, and the first
such character is told.  Any other text has tokens, and written without a gap they are the text,
stripped and collapsed, without the zeros in front of its numerals and without the minus signs of
zeros that stand at the start, behind an opening parenthesis or behind an operator. -/
theorem alphabet_is_read_whole (source : Text) :
    (∀ e, tokenize source = .error e ↔
        ∃ front c back, source = front ++ c :: back ∧ (∀ b ∈ front, inAlphabet b) ∧
          ¬inAlphabet c ∧ e = .strayCharacter c) ∧
      ((∃ tokens, tokenize source = .ok tokens) ↔ ∀ c ∈ source, inAlphabet c) ∧
      (∀ tokens, tokenize source = .ok tokens →
        tokens.flatMap Token.render = source.stripBlanks.collapse.neat) ∧
      ∀ c, (ParseError.strayCharacter c).message = "Invalid expression".toList ∧
        (ParseError.strayCharacter c).details? =
          some ("unexpected input '".toList ++ c :: "'".toList) := by
  refine ⟨fun e => ?_, ?_, fun tokens h => spell_of_tokenize h, fun c => ⟨rfl, rfl⟩⟩
  · rw [tokenize_eq_error_iff_find?]
    simp only [List.find?_eq_some_iff_append]
    constructor
    · rintro ⟨c, ⟨hc, front, back, rfl, hfront⟩, rfl⟩
      exact ⟨front, c, back, rfl, by simpa using hfront, by simpa using hc, rfl⟩
    · rintro ⟨front, c, back, rfl, hfront, hc, rfl⟩
      exact ⟨c, ⟨by simpa using hc, front, back, rfl, by simpa using hfront⟩, rfl⟩
  · have hnone : (∀ c ∈ source, inAlphabet c) ↔
        source.find? (fun c => !inAlphabet c) = none := by simp
    rw [hnone]
    cases hread : tokenize source with
    | ok tokens =>
        cases hfind : source.find? fun c => !inAlphabet c with
        | none => simp
        | some c =>
            have herror := tokenize_eq_error_iff_find?.2 ⟨c, hfind, rfl⟩
            rw [hread] at herror
            cases herror
    | error e =>
        obtain ⟨c, hfind, -⟩ := tokenize_eq_error_iff_find?.1 hread
        simp [hfind]

/-- Blanks, runs of signs, zeros in front and minus signs of zeros; and two characters outside the
alphabet, behind blanks that are none of the ASCII ones. -/
theorem alphabet_is_read_whole_samples :
    tokenize "-00 * - -07x-0\u3000(- 0)".toList =
        .ok [number 0, operator .mul, operator .add, number 7, identifier ['x'], operator .sub,
          number 0, leftParen, number 0, rightParen] ∧
      [number 0, operator .mul, operator .add, number 7, identifier ['x'], operator .sub,
          number 0, leftParen, number 0, rightParen].flatMap Token.render =
        "0*+7x-0(0)".toList ∧
      tokenize "1\u0085+ \u00e9 $".toList = .error (.strayCharacter '\u00e9') := by
  have hread : tokenize "-00 * - -07x-0\u3000(- 0)".toList =
      .ok [number 0, operator .mul, operator .add, number 7, identifier ['x'], operator .sub,
        number 0, leftParen, number 0, rightParen] := by rfl
  refine ⟨hread, (alphabet_is_read_whole _).2.2.1 _ hread, ?_⟩
  exact ((alphabet_is_read_whole _).1 _).2
    ⟨"1\u0085+ ".toList, '\u00e9', " $".toList, rfl, List.all_eq_true.1 (by decide), by decide, rfl⟩

end Calculator
