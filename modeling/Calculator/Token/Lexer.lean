import Calculator.Error
import Calculator.Sign
import Calculator.Text.Run

/-!
# From text to tokens

A text becomes tokens in four steps: the blanks go, every run of signs becomes
one sign, every run of characters becomes one piece, and a minus sign that
stands where an operand is expected joins the number after it.

A piece is a token or a **stray** character, one that no token starts with.
The first stray character decides: then the text has no tokens at all.

* `acceptAll_eq_ok_iff`, `acceptAll_eq_error_iff` — a row of pieces is accepted
  when none is stray, and otherwise the first stray character is told;
* `tokenize_eq_ok_iff`, `tokenize_eq_error_iff` — the same of a text;
* `attachMinus_of_ne_sub`, `attachMinus_sub_number` — only a minus sign is ever
  absorbed, and only into the number right after it.
-/

namespace Calculator

/-- What one run of a text is read as. -/
inductive Piece where
  | token (token : Token)
  | stray (c : Char)
  deriving DecidableEq

namespace Piece

/-- A run of letters is a name, a run of digits a number, any other run a mark
or a stray character.  An empty run is nothing. -/
def ofRun? : Text → Option Piece
  | [] => none
  | c :: rest =>
    if c.isAlpha then some (token (.identifier (c :: rest)))
    else if c.isDigit then some (token (.number (Decimal.value (c :: rest))))
    else match Token.ofMark? c with
      | some mark => some (token mark)
      | none => some (stray c)

/-- The token of a piece; a stray character is refused. -/
def accept : Piece → Except ParseError Token
  | token t => .ok t
  | stray c => .error (.strayCharacter c)

end Piece

/-- The pieces of a text as it stands: blanks are stray, and signs stay operators. -/
def lex (text : Text) : List Piece :=
  text.runs.filterMap Piece.ofRun?

@[simp] theorem lex_nil : lex [] = [] := rfl

/-- Joins a minus sign to the number after it wherever an operand is expected;
the flag tells whether one is expected at the start. -/
def attachMinus : Bool → List Token → List Token
  | _, [] => []
  | true, .operator .sub :: .number n :: rest => .number (-n) :: attachMinus false rest
  | _, token :: rest => token :: attachMinus token.awaitsOperand rest

/-- The tokens of a row of pieces, unless one of them is stray. -/
def acceptAll (pieces : List Piece) : Except ParseError (List Token) :=
  pieces.mapM Piece.accept

/-- The tokens of an expression, or the first stray character as the reason why
it has none. -/
def tokenize (source : Text) : Except ParseError (List Token) := do
  let tokens ← acceptAll (lex source.stripBlanks.collapse)
  return attachMinus true tokens

@[simp] theorem acceptAll_nil : acceptAll [] = .ok [] := rfl

theorem acceptAll_token_cons (token : Token) (pieces : List Piece) :
    acceptAll (.token token :: pieces) = (acceptAll pieces).map (token :: ·) := by
  simp only [acceptAll, List.mapM_cons, Piece.accept]
  cases pieces.mapM Piece.accept <;> rfl

@[simp] theorem acceptAll_stray_cons (c : Char) (pieces : List Piece) :
    acceptAll (.stray c :: pieces) = .error (.strayCharacter c) := by
  rw [acceptAll, List.mapM_cons]
  rfl

/-- A row of pieces is accepted when every piece is a token. -/
theorem acceptAll_eq_ok_iff {pieces : List Piece} {tokens : List Token} :
    acceptAll pieces = .ok tokens ↔ pieces = tokens.map .token := by
  constructor
  · intro h
    induction pieces generalizing tokens with
    | nil => cases h; rfl
    | cons piece pieces ih =>
      cases piece with
      | stray c => rw [acceptAll_stray_cons] at h; cases h
      | token token =>
        rw [acceptAll_token_cons] at h
        cases hrest : acceptAll pieces with
        | error e => rw [hrest] at h; cases h
        | ok rest =>
          rw [hrest] at h
          cases h
          rw [ih hrest, List.map_cons]
  · rintro rfl
    induction tokens with
    | nil => rfl
    | cons token tokens ih =>
      rw [List.map_cons, acceptAll_token_cons, ih]
      rfl

/-- A row of pieces is refused for the first stray character. -/
theorem acceptAll_eq_error_iff {pieces : List Piece} {e : ParseError} :
    acceptAll pieces = .error e ↔
      ∃ (tokens : List Token) (c : Char) (rest : List Piece),
        pieces = tokens.map .token ++ .stray c :: rest ∧ e = .strayCharacter c := by
  constructor
  · intro h
    induction pieces with
    | nil => cases h
    | cons piece pieces ih =>
      cases piece with
      | stray c =>
        rw [acceptAll_stray_cons] at h
        cases h
        exact ⟨[], c, pieces, rfl, rfl⟩
      | token token =>
        rw [acceptAll_token_cons] at h
        cases hrest : acceptAll pieces with
        | ok rest => rw [hrest] at h; cases h
        | error e' =>
          rw [hrest] at h
          cases h
          obtain ⟨tokens, c, rest, rfl, he⟩ := ih hrest
          exact ⟨token :: tokens, c, rest, rfl, he⟩
  · rintro ⟨tokens, c, rest, rfl, rfl⟩
    induction tokens with
    | nil => exact acceptAll_stray_cons c rest
    | cons token tokens ih =>
      rw [List.map_cons, List.cons_append, acceptAll_token_cons, ih]
      rfl

/-- A text has tokens when no piece of it is stray. -/
theorem tokenize_eq_ok_iff {source : Text} {tokens : List Token} :
    tokenize source = .ok tokens ↔
      ∃ raw, lex source.stripBlanks.collapse = raw.map .token ∧ tokens = attachMinus true raw := by
  rw [tokenize]
  cases h : acceptAll (lex source.stripBlanks.collapse) with
  | ok raw =>
    rw [acceptAll_eq_ok_iff] at h
    simp [h, bind, Except.bind, pure, Except.pure, eq_comm,
      List.map_inj_right (fun _ _ => Piece.token.inj)]
  | error e =>
    have refused (raw : List Token) : lex source.stripBlanks.collapse ≠ raw.map .token :=
      fun accepted => by simp [acceptAll_eq_ok_iff.2 accepted] at h
    simp [refused, bind, Except.bind]

/-- A text has no tokens when its pieces are refused. -/
theorem tokenize_eq_error_iff {source : Text} {e : ParseError} :
    tokenize source = .error e ↔ acceptAll (lex source.stripBlanks.collapse) = .error e := by
  rw [tokenize]
  cases acceptAll (lex source.stripBlanks.collapse) <;>
    simp [bind, Except.bind, pure, Except.pure]

@[simp] theorem attachMinus_nil (expected : Bool) : attachMinus expected [] = [] := by
  cases expected <;> rfl

/-- Where an operand is expected, a minus sign and a number are one number. -/
@[simp] theorem attachMinus_sub_number (n : Int) (rest : List Token) :
    attachMinus true (.operator .sub :: .number n :: rest) =
      .number (-n) :: attachMinus false rest := rfl

/-- Where no operand is expected, the next token stays as it is. -/
@[simp] theorem attachMinus_false_cons (token : Token) (rest : List Token) :
    attachMinus false (token :: rest) = token :: attachMinus token.awaitsOperand rest := by
  rw [attachMinus]
  simp

/-- Any token but a minus sign stays as it is. -/
theorem attachMinus_of_ne_sub {token : Token} (h : token ≠ .operator .sub) (expected : Bool)
    (rest : List Token) :
    attachMinus expected (token :: rest) = token :: attachMinus token.awaitsOperand rest := by
  rw [attachMinus]
  rintro n after - rfl -
  exact h rfl

example : tokenize "2 * -3".toList =
    .ok [.number 2, .operator .mul, .number (-3)] := by rfl

example : tokenize "-(3) - -4".toList =
    .ok [.operator .sub, .leftParen, .number 3, .rightParen, .operator .add, .number 4] := by rfl

example : tokenize "2 ^ 3 $".toList = .error (.strayCharacter '^') := by rfl

end Calculator
