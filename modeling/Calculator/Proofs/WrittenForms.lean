import Calculator.Proofs.MergedSigns

/-!
# Expressions as they are written

A tree is written in infix with parentheses where precedence or the grouping
from the left needs them, with more of them where one likes, and with blanks
anywhere.  The grammar tells where parentheses are needed: a text writes a tree
when it is the spelling of a row that the grammar derives, with blanks spread
over it.

Such a text is read as a canonical row that stands for a tree with the same
value (`Calculator.Proofs.MergedSigns`), so the text has the value of the tree
that was written, and fails for the same reason.

* `Expr.derives_written` — every tree can be written, with no more parentheses
  than it needs;
* `Session.evaluate_written` — a text that writes a tree has the tree's value.
-/

namespace Calculator

namespace Text

/-- Blanks that are spread over a text, between its characters and at its ends. -/
inductive Spread : Text → Text → Prop
  | nil : Spread [] []
  | char (c : Char) {s t : Text} (rest : Spread s t) : Spread (c :: s) (c :: t)
  | blank {c : Char} {s t : Text} (hc : isBlank c) (rest : Spread s t) : Spread s (c :: t)

/-- Stripping takes the blanks away that were spread over a text. -/
theorem Spread.stripBlanks {s t : Text} (h : Spread s t) : t.stripBlanks = s.stripBlanks := by
  induction h with
  | nil => rfl
  | @char c s t rest ih =>
      have hs : Text.stripBlanks (c :: s) = Text.stripBlanks [c] ++ s.stripBlanks :=
        stripBlanks_append [c] s
      have ht : Text.stripBlanks (c :: t) = Text.stripBlanks [c] ++ t.stripBlanks :=
        stripBlanks_append [c] t
      rw [hs, ht, ih]
  | blank hc rest ih => simpa [Text.stripBlanks, hc] using ih

/-- The blanks of a text are spread over what stripping leaves of it. -/
theorem spread_stripBlanks (text : Text) : Spread text.stripBlanks text := by
  induction text with
  | nil => exact Spread.nil
  | cons c text ih =>
      cases hc : isBlank c with
      | true =>
          have hstrip : stripBlanks (c :: text) = stripBlanks text := by simp [stripBlanks, hc]
          rw [hstrip]
          exact Spread.blank hc ih
      | false =>
          have hstrip : stripBlanks (c :: text) = c :: stripBlanks text := by
            simp [stripBlanks, hc]
          rw [hstrip]
          exact Spread.char c ih

end Text

/-- The operators that need no parentheses at a level. -/
def Level.admits : Level → Operator → Bool
  | sum, _ => true
  | product, op => op.level == product
  | factor, _ => false

theorem Derives.of_admits {level : Level} {op : Operator} (h : level.admits op)
    {tokens : List Token} {e : Expr} (hderives : Derives op.level tokens e) :
    Derives level tokens e := by
  cases level with
  | sum =>
      cases op with
      | add => exact hderives
      | sub => exact hderives
      | mul => exact Derives.single hderives
      | div => exact Derives.single hderives
  | product =>
      have hop : op.level = .product := eq_of_beq h
      exact hop ▸ hderives
  | factor => cases h

/-- The names of a derived row are those of its tree. -/
theorem Derives.mem_names {level : Level} {tokens : List Token} {e : Expr}
    (h : Derives level tokens e) {x : Text} (hx : .identifier x ∈ tokens) : x ∈ e.names := by
  induction h with
  | number n => simp at hx
  | identifier y => simpa [Expr.names] using hx
  | group inner ih => exact ih (by simpa using hx)
  | single only ih => exact ih hx
  | chain before after ihl ihr =>
      rcases List.mem_append.1 hx with hfirst | hsecond
      · exact List.mem_append_left _ (ihl hfirst)
      · exact List.mem_append_right _ (ihr (by simpa using hsecond))

namespace Expr

/-- A text writes a tree when it is the spelling of a row that stands for the tree, with
blanks spread over it. -/
def WrittenAs (e : Expr) (text : Text) : Prop :=
  ∃ tokens, Derives .sum tokens e ∧ (Token.spell tokens).Spread text

/-- The row that writes a tree at a level, with the parentheses that it needs. -/
def written : Level → Expr → List Token
  | _, number n => [.number n]
  | _, identifier x => [.identifier x]
  | level, binary op left right =>
    let row := left.written op.level ++ .operator op :: right.written op.level.tighter
    if level.admits op then row else .leftParen :: row ++ [.rightParen]

/-- **Every tree can be written** at every level. -/
theorem derives_written (e : Expr) (level : Level) : Derives level (e.written level) e := by
  induction e generalizing level with
  | number n => exact (Derives.number n).relax level
  | identifier x => exact (Derives.identifier x).relax level
  | binary op left right ihl ihr =>
      have hchain := Derives.chain (ihl op.level) (ihr op.level.tighter)
      rw [written]
      by_cases hadmits : level.admits op
      · rw [if_pos hadmits]
        exact Derives.of_admits hadmits hchain
      · rw [if_neg hadmits]
        exact (Derives.group (Derives.of_admits rfl hchain)).relax level

end Expr

namespace Session

/-- **A text that writes a tree has the value of the tree**, and fails as the tree fails: for
the first of its names without a value or division by zero, and for nothing else. -/
theorem evaluate_written {e : Expr} (hnames : ∀ x ∈ e.names, x.isIdentifier) {text : Text}
    (h : e.WrittenAs text) (env : Environment) :
    evaluate env text = (e.value env).mapError .eval ∧
      ∀ cause, evaluate env text = .error cause →
        (∃ x ∈ e.names, cause = .eval (.unknownVariable x)) ∨ cause = .eval .divisionByZero := by
  obtain ⟨tokens, hderives, hspread⟩ := h
  obtain ⟨row, e', hrow, hcanonical, hcollapses, hvalue⟩ := hderives.collapsed hnames
  have hletters : ∀ x, .identifier x ∈ tokens → x.isIdentifier :=
    fun x hx => hnames x (hderives.mem_names hx)
  have htext : text.stripBlanks.collapse = Token.spell row := by
    have hall := hcollapses []
    rw [List.append_nil, Text.collapse_nil, List.append_nil] at hall
    rw [hspread.stripBlanks, Token.stripBlanks_spell_of_letters hletters, hall]
  have hread : tokenize text = .ok row := hcanonical.tokenize_of_collapse htext
  have hevaluate : evaluate env text = (e.value env).mapError .eval := by
    rw [ReversePolish.evaluate_eq_compute hread, ReversePolish.compute_of_derives hrow, hvalue]
  refine ⟨hevaluate, fun cause hcause => ?_⟩
  rw [hevaluate] at hcause
  cases hresult : e.value env with
  | ok v =>
      rw [hresult] at hcause
      cases hcause
  | error failure =>
      rw [hresult] at hcause
      have heq : Error.eval failure = cause := Except.error.inj hcause
      rcases Expr.value_error hresult with ⟨x, hx, rfl⟩ | rfl
      · exact Or.inl ⟨x, hx, heq.symm⟩
      · exact Or.inr heq.symm

/-- Negative numbers behind a minus and behind a plus, in front of a quotient and a product. -/
theorem evaluate_written_signs :
    (Expr.binary .add
        (.binary .sub (.identifier ['x']) (.binary .div (.number (-7)) (.identifier ['y'])))
        (.binary .mul (.number (-2)) (.identifier ['y']))).WrittenAs
          "x - -7 / y + -2 * y".toList ∧
      evaluate ((Environment.empty.assign ['x'] 9).assign ['y'] 2)
        "x - -7 / y + -2 * y".toList = .ok 8 := by
  have hwritten : (Expr.binary .add
      (.binary .sub (.identifier ['x']) (.binary .div (.number (-7)) (.identifier ['y'])))
      (.binary .mul (.number (-2)) (.identifier ['y']))).WrittenAs
        "x - -7 / y + -2 * y".toList :=
    ⟨_, Expr.derives_written _ .sum, Text.spread_stripBlanks "x - -7 / y + -2 * y".toList⟩
  exact ⟨hwritten, (evaluate_written (by decide) hwritten _).1⟩

end Session

end Calculator
