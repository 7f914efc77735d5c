import Calculator.Proofs.MergedSigns
import Calculator.Proofs.NameRuns
import Calculator.Proofs.Operands

/-!
# Names that stand for values

A row of tokens **stands alone** if it is a name, or canonical and in
parentheses.  Such a row may take the place of a name in a text: it is sealed
when it is written, so what stands around it is read as before, and a minus sign
behind it finds an operand just as it would behind the name.

So a name means its value.  The integer it is bound to may be written in its
place, in parentheses and whatever its sign.  Also where the text is no
expression at all, it fails for the same cause as before.

* `StandsAlone.isSealed`, `StandsAlone.attachMinus_append` — what makes it stand alone;
* `tokenize_replaceNames` — the tokens of a text with such rows in the place of names;
* `Session.evaluate_replaceNames`, `Session.evaluate_standsFor` — and their value;
* `Session.name_means_its_value` — the value of a name in its place.
-/

namespace Calculator

namespace Token

/-- A row that may take the place of a name. -/
inductive StandsAlone : List Token → Prop
  | name {x : Text} (h : x.isIdentifier) : StandsAlone [identifier x]
  | enclosed {inner : List Token} (h : Canonical inner) : StandsAlone (group inner)

theorem spell_group (inner : List Token) : spell (group inner) = (spell inner).group := by
  simp [spell, group, Text.group, render]

theorem signApart_group (inner : List Token) :
    (group inner).flatMap signApart = group (inner.flatMap signApart) := by
  simp [group, signApart]

theorem Canonical.lex_spell {row : List Token} (h : Canonical row) :
    lex (spell row) = (row.flatMap signApart).map .token := by
  obtain ⟨hletters, hparted, -⟩ := canonical_iff.1 h
  rw [← spell_signApart]
  exact (rawRow_signApart hletters hparted).lex_spell

theorem lex_group (text : Text) :
    lex text.group = .token .leftParen :: lex text ++ [.token .rightParen] := by
  have htext : text.group = [] ++ '(' :: (text ++ [')']) := rfl
  rw [htext, lex_append_mark rfl, lex_append_mark rfl]
  rfl

namespace StandsAlone

variable {row : List Token}

/-- Written, it is sealed. -/
theorem isSealed (h : StandsAlone row) : (spell row).Sealed := by
  cases h with
  | name hx => simpa [spell, render] using Text.sealed_name hx
  | enclosed hinner =>
      have hstrip := stripBlanks_spell_of_letters hinner.letters
      have hcollapse := hinner.collapse_spell
      rw [hstrip] at hcollapse
      rw [spell_group]
      exact Text.sealed_group (Text.stripBlanks_eq_self_iff.1 hstrip) hcollapse

/-- Cut into pieces, it has its own tokens, the signs apart. -/
theorem lex_spell (h : StandsAlone row) :
    lex (spell row) = (row.flatMap signApart).map .token := by
  cases h with
  | name hx => exact (canonical_singleton fun y hy => (identifier.inj hy) ▸ hx).lex_spell
  | enclosed hinner =>
      rw [spell_group, lex_group, hinner.lex_spell, signApart_group]
      simp [group]

/-- Its minus signs join its own numbers, and behind it an operand has been met. -/
theorem attachMinus_append (h : StandsAlone row) (expected : Bool) (rest : List Token) :
    attachMinus expected (row.flatMap signApart ++ rest) = row ++ attachMinus false rest := by
  cases h with
  | name hx => exact attachMinus_of_ne_sub (by simp) expected rest
  | @enclosed inner hinner =>
      have hsettled : Settled true inner := (canonical_iff.1 hinner).2.2
      have hrow : group (inner.flatMap signApart) ++ rest =
          [] ++ leftParen :: (inner.flatMap signApart ++ rightParen :: rest) := by simp [group]
      rw [signApart_group, hrow, attachMinus_append_paren rfl, awaitsOperand,
        attachMinus_append_paren rfl, attachMinus_signApart hsettled]
      simp [group, awaitsOperand]

/-- It is no number in front of which a minus sign could stand. -/
theorem head?_ne_number (h : StandsAlone row) (rest : List Token) (n : Int) :
    (row.flatMap signApart ++ rest).head? ≠ some (number n) := by
  cases h with
  | name hx => simp [signApart]
  | enclosed hinner => simp [group, signApart]

end StandsAlone

/-! ## In the tokens of a text -/

theorem acceptAll_map_append (row : List Token) (pieces : List Piece) :
    acceptAll (row.map .token ++ pieces) = (acceptAll pieces).map (row ++ ·) := by
  induction row with
  | nil =>
      rw [List.map_nil, List.nil_append]
      cases acceptAll pieces <;> rfl
  | cons t row ih =>
      rw [List.map_cons, List.cons_append, acceptAll_token_cons, ih]
      cases acceptAll pieces <;> rfl

/-- Pieces that take the place of names are accepted where the names are. -/
theorem acceptAll_replace {f : Text → Text} {raw : Text → List Token} {pieces : List Piece}
    (h : ∀ x, .token (identifier x) ∈ pieces → lex (f x) = (raw x).map .token) :
    acceptAll (pieces.flatMap (Piece.replace f)) =
      (acceptAll pieces).map fun row => row.flatMap (replace raw) := by
  induction pieces with
  | nil => rfl
  | cons piece pieces ih =>
      have hrest := ih fun x hx => h x (List.mem_cons_of_mem piece hx)
      cases piece with
      | stray c => simp [Piece.replace, Except.map]
      | token t =>
          have hfirst : Piece.replace f (.token t) = (t.replace raw).map .token := by
            cases t with
            | identifier x => exact h x List.mem_cons_self
            | _ => rfl
          rw [List.flatMap_cons, hfirst, acceptAll_map_append, hrest, acceptAll_token_cons]
          cases acceptAll pieces <;> rfl

/-- A name that is cut out of a text is one. -/
theorem isIdentifier_of_mem_lex {text x : Text} (h : .token (identifier x) ∈ lex text) :
    x.isIdentifier := by
  obtain ⟨run, hrun, hread⟩ := List.mem_filterMap.1 h
  obtain ⟨hname, heq⟩ | ⟨-, heq⟩ | ⟨c, -, hmark⟩ :=
    ofRun?_eq_token (List.isChain_of_mem_splitBy hrun) hread
  · rw [identifier.inj heq]
    exact hname
  · cases heq
  · exact mark_raw hmark

theorem replace_ne_number {meaning : Text → List Token} {rest : List Token}
    (h : ∀ x, identifier x ∈ rest → StandsAlone (meaning x))
    (hrest : ∀ n, rest.head? ≠ some (number n)) :
    ∀ n, (rest.flatMap (replace fun x => (meaning x).flatMap signApart)).head? ≠
      some (number n) := by
  cases rest with
  | nil => simp
  | cons t rest =>
      intro n
      rw [List.flatMap_cons]
      by_cases hname : ∀ x, t ≠ identifier x
      · rw [replace_of_ne_identifier hname]
        exact hrest n
      · obtain ⟨x, rfl⟩ : ∃ x, t = identifier x := by simpa using hname
        exact (h x List.mem_cons_self).head?_ne_number _ n

/-- **Minus signs do not notice rows that stand alone.** -/
theorem attachMinus_replace {meaning : Text → List Token} {expected : Bool} {row : List Token}
    (h : ∀ x, identifier x ∈ row → StandsAlone (meaning x)) :
    attachMinus expected (row.flatMap (replace fun x => (meaning x).flatMap signApart)) =
      (attachMinus expected row).flatMap (replace meaning) := by
  fun_induction attachMinus expected row with
  | case1 => simp
  | case2 n rest ih =>
      have htail := ih fun x hx => h x (by simp [hx])
      simpa [replace] using htail
  | case3 expected token rest hjoin ih =>
      have htail := ih fun x hx => h x (List.mem_cons_of_mem token hx)
      by_cases hname : ∀ x, token ≠ identifier x
      · have hhead : expected = true → token = operator .sub → ∀ n,
            (rest.flatMap (replace fun x => (meaning x).flatMap signApart)).head? ≠
              some (number n) := by
          intro hexpected hsub
          refine replace_ne_number (fun x hx => h x (List.mem_cons_of_mem token hx)) ?_
          intro n hn
          obtain ⟨after, hafter⟩ := List.head?_eq_some_iff.1 hn
          exact hjoin n after hexpected hsub hafter
        rw [List.flatMap_cons, List.flatMap_cons, replace_of_ne_identifier hname,
          replace_of_ne_identifier hname, List.singleton_append, attachMinus_cons hhead, htail,
          List.singleton_append]
      · obtain ⟨x, rfl⟩ : ∃ x, token = identifier x := by simpa using hname
        have hrow := (h x List.mem_cons_self).attachMinus_append expected
        rw [List.flatMap_cons, List.flatMap_cons, replace, hrow]
        exact congrArg _ htail

/-- **Rows that stand alone, in the place of the names of a text.**  Where the text has no tokens,
the other has none for the same cause. -/
theorem tokenize_replaceNames {meaning : Text → List Token}
    (h : ∀ x, x.isIdentifier → StandsAlone (meaning x)) (source : Text) :
    tokenize (source.stripBlanks.replaceNames fun x => spell (meaning x)) =
      (tokenize source).map fun tokens => tokens.flatMap (replace meaning) := by
  have hread : ∀ text, tokenize text = (acceptAll (pieces text)).map (attachMinus true) := by
    intro text
    rw [tokenize, pieces]
    cases acceptAll (lex text.stripBlanks.collapse) <;> rfl
  have hspell : ∀ x, .token (identifier x) ∈ pieces source →
      lex (spell (meaning x)) = ((meaning x).flatMap signApart).map .token :=
    fun x hx => (h x (isIdentifier_of_mem_lex hx)).lex_spell
  rw [hread, hread, pieces_replaceNames fun x hx => (h x hx).isSealed,
    acceptAll_replace hspell]
  cases hall : acceptAll (pieces source) with
  | error cause => rfl
  | ok raw =>
      have hraw : pieces source = raw.map .token := acceptAll_eq_ok_iff.1 hall
      have hnames : ∀ x, identifier x ∈ raw → StandsAlone (meaning x) := by
        intro x hx
        have hmem : .token (identifier x) ∈ pieces source := by
          rw [hraw]
          exact List.mem_map_of_mem hx
        exact h x (isIdentifier_of_mem_lex hmem)
      exact congrArg Except.ok (attachMinus_replace hnames)

end Token

/-! ## In the value of a text -/

namespace Session

open Token ReversePolish

/-- **Rows that do what the names of a text do, in their place.**  The value is the same, and so
is the cause of a failure up to the name that is told. -/
theorem evaluate_replaceNames {env env' : Environment} {meaning out : Text → List Token}
    {naming : Text → Text} {wording : Error → Error}
    (hmeaning : ∀ x, x.isIdentifier → StandsAlone (meaning x))
    (hpass : ∀ x, x.isIdentifier → Yard.Passes (meaning x) (out x))
    (hexec : ∀ x, x.isIdentifier → ∀ stack, exec env' stack (out x) =
      (execToken env stack (identifier x)).mapError (EvalError.rename naming))
    (hstray : ∀ c, wording (.parse (.strayCharacter c)) = .parse (.strayCharacter c))
    (hparse : wording (.parse .unbalancedParentheses) = .parse .unbalancedParentheses)
    (heval : ∀ cause, wording (.eval cause) = .eval (cause.rename naming)) (source : Text) :
    evaluate env' (source.stripBlanks.replaceNames fun x => spell (meaning x)) =
      (evaluate env source).mapError wording := by
  have htokens := tokenize_replaceNames hmeaning source
  cases hread : tokenize source with
  | error cause =>
      obtain ⟨-, c, -, -, rfl⟩ := acceptAll_eq_error_iff.1 (tokenize_eq_error_iff.1 hread)
      rw [hread] at htokens
      rw [evaluate_of_tokenize_error htokens, evaluate_of_tokenize_error hread]
      exact congrArg Except.error (hstray c).symm
  | ok tokens =>
      have hletters := (canonical_of_tokenize hread).letters
      rw [hread] at htokens
      rw [evaluate_eq_compute htokens, evaluate_eq_compute hread]
      exact compute_replace (fun x hx => hpass x (hletters x hx))
        (fun x hx => hexec x (hletters x hx)) hparse heval

/-- One name stands for a row of tokens, and any other for itself. -/
def standsFor (x : Text) (row : List Token) (name : Text) : List Token :=
  if name = x then row else [identifier name]

@[simp] theorem standsFor_self (x : Text) (row : List Token) : standsFor x row x = row :=
  if_pos rfl

theorem standsFor_of_ne {x name : Text} (h : name ≠ x) (row : List Token) :
    standsFor x row name = [identifier name] :=
  if_neg h

/-- **A row that does what a name does, in the place of the name.** -/
theorem evaluate_standsFor {env : Environment} {x : Text} {row out : List Token}
    (hrow : StandsAlone row) (hpass : Yard.Passes row out)
    (hexec : ∀ stack, exec env stack out = execToken env stack (identifier x)) (source : Text) :
    evaluate env (source.stripBlanks.replaceNames fun name =>
      if name = x then spell row else name) = evaluate env source := by
  have hspell : (fun name => spell (standsFor x row name)) = fun name =>
      if name = x then spell row else name := by
    funext name
    by_cases hname : name = x
    · rw [hname, standsFor_self, if_pos rfl]
    · rw [standsFor_of_ne hname, if_neg hname]
      simp [spell, render]
  have hmeaning : ∀ name, name.isIdentifier → StandsAlone (standsFor x row name) := by
    intro name hletters
    by_cases hname : name = x
    · rwa [hname, standsFor_self]
    · rw [standsFor_of_ne hname]
      exact StandsAlone.name hletters
  have hpasses : ∀ name, Yard.Passes (standsFor x row name) (standsFor x out name) := by
    intro name
    by_cases hname : name = x
    · rwa [hname, standsFor_self, standsFor_self]
    · rw [standsFor_of_ne hname, standsFor_of_ne hname]
      exact Yard.passes_identifier name
  have hexecs : ∀ name stack, exec env stack (standsFor x out name) =
      (execToken env stack (identifier name)).mapError (EvalError.rename id) := by
    intro name stack
    rw [EvalError.rename_id, Except.mapError_id]
    by_cases hname : name = x
    · rw [hname, standsFor_self, hexec]
    · rw [standsFor_of_ne hname, exec_singleton]
  have hall : evaluate env (source.stripBlanks.replaceNames fun name =>
      spell (standsFor x row name)) = (evaluate env source).mapError id :=
    evaluate_replaceNames hmeaning (fun name _ => hpasses name) (fun name _ => hexecs name)
      (fun _ => rfl) rfl (fun cause => by rw [EvalError.rename_id]; rfl) source
  rwa [hspell, Except.mapError_id] at hall

/-- **A name means its value.**  Each time it stands in a text, the integer that it is bound to
may be written instead, in parentheses. -/
theorem name_means_its_value {env : Environment} {x : Text} {v : Int}
    (h : env.lookup x = some v) (source : Text) :
    evaluate env (source.stripBlanks.replaceNames fun name =>
      if name = x then (Decimal.render v).group else name) = evaluate env source := by
  have hspell : spell (group [number v]) = (Decimal.render v).group := by
    rw [spell_group]
    simp [spell, render]
  have hrow : StandsAlone (group [number v]) := StandsAlone.enclosed (canonical_singleton (by simp))
  have hnumber : arrange [number v] = .ok [number v] := rfl
  have hquery : env.query x = .ok v := Environment.query_eq_ok_iff.2 h
  have hexec : ∀ stack, exec env stack [number v] = execToken env stack (identifier x) := by
    intro stack
    rw [exec_singleton, execToken, execToken, hquery]
    rfl
  rw [← hspell]
  exact evaluate_standsFor hrow (Yard.passes_group hnumber) hexec source

/-- A negative value behind signs, and in front of one. -/
theorem name_means_its_value_negative :
    (Environment.empty.assign ['x'] (-3)).lookup ['x'] = some (-3) ∧
      evaluate (Environment.empty.assign ['x'] (-3)) "8--(-3)*((-3)-2)".toList =
        evaluate (Environment.empty.assign ['x'] (-3)) "8 - -x * (x - 2)".toList ∧
      evaluate (Environment.empty.assign ['x'] (-3)) "8 - -x * (x - 2)".toList = .ok 23 :=
  have hbound : (Environment.empty.assign ['x'] (-3)).lookup ['x'] = some (-3) := rfl
  ⟨hbound, name_means_its_value hbound "8 - -x * (x - 2)".toList, rfl⟩

end Session

end Calculator
