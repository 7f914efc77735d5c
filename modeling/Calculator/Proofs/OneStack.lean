import Calculator.Proofs.Groups

/-!
# The yard as one stack

A yard keeps the operators that wait group by group.  Laid one on the other, with
an opening parenthesis between any two groups, they are one stack, and a token
does to the stack what it does to the yard: an operator takes off those on top
that bind at least as tightly, until it meets a parenthesis, and a closing
parenthesis takes off everything down to an opening one.

An operator is laid only on operators that bind less tightly.  So within a group
each operator binds more tightly than those below, and since there are two
precedences there is room for two of them.  A closing parenthesis uncovers the
group around, which is as it was left.

* `Stack.step_stack`, `Stack.run_stack` — the stack does what the yard does;
* `Yard.Ascending.step`, `Yard.Ascending.run` — the order in a group is kept;
* `length_le_two` — how many operators it has room for;
* `Yard.depth_eq_unmatched` — the parentheses that lie on the stack are those that stay open.
-/

namespace Calculator

open Token

namespace ReversePolish

/-- What lies on the one stack. -/
inductive Entry where
  | operator (op : Operator)
  | leftParen
  deriving DecidableEq

/-- The operators of one group, as they lie on the stack. -/
def entries (group : List Operator) : List Entry :=
  group.map .operator

theorem entries_cons (op : Operator) (group : List Operator) :
    entries (op :: group) = .operator op :: entries group := rfl

/-- The groups of a yard on one stack, the latest entry in front. -/
def Yard.stack (yard : Yard) : List Entry :=
  [Entry.leftParen].intercalate ((yard.waiting :: yard.enclosing).map entries)

/-! ## What tokens do to the stack -/

namespace Stack

/-- Takes off the operators in front that bind at least as tightly as `op`. -/
def yield (op : Operator) : List Entry → List Token × List Entry
  | .operator top :: below =>
    if op.precedence ≤ top.precedence then
      (.operator top :: (yield op below).1, (yield op below).2)
    else ([], .operator top :: below)
  | stack => ([], stack)

/-- Takes off everything down to the first parenthesis, and that as well. -/
def close : List Entry → Except ParseError (List Token × List Entry)
  | [] => .error .unbalancedParentheses
  | .leftParen :: below => .ok ([], below)
  | .operator op :: below => (close below).map fun (gone, stay) => (.operator op :: gone, stay)

/-- Takes in one token; the result tells what leaves, in order, and the stack after it. -/
def step (stack : List Entry) : Token → Except ParseError (List Token × List Entry)
  | .number value => .ok ([.number value], stack)
  | .identifier name => .ok ([.identifier name], stack)
  | .operator op => .ok ((yield op stack).1, .operator op :: (yield op stack).2)
  | .leftParen => .ok ([], .leftParen :: stack)
  | .rightParen => close stack

/-- Takes in a row of tokens. -/
def run (stack : List Entry) : List Token → Except ParseError (List Token × List Entry)
  | [] => .ok ([], stack)
  | token :: tokens => do
    let (leaving, next) ← step stack token
    let (later, last) ← run next tokens
    return (leaving ++ later, last)

/-- Empties the stack at the end of the row, when no parenthesis may lie on it. -/
def drain : List Entry → Except ParseError (List Token)
  | [] => .ok []
  | .operator op :: below => (drain below).map (Token.operator op :: ·)
  | .leftParen :: _ => .error .unbalancedParentheses

end Stack

theorem Yard.stack_outermost (group : List Operator) : Yard.stack ⟨group, []⟩ = entries group :=
  List.intercalate_singleton

theorem Yard.stack_inner (group outer : List Operator) (rest : List (List Operator)) :
    Yard.stack ⟨group, outer :: rest⟩ =
      entries group ++ .leftParen :: Yard.stack ⟨outer, rest⟩ := by
  simp [Yard.stack, List.intercalate_cons_cons]

/-- A group on the stack lies on nothing, or on the parenthesis that opened it. -/
theorem Yard.exists_below (yard : Yard) :
    ∃ below : List Entry, (∀ group : List Operator,
      Yard.stack ⟨group, yard.enclosing⟩ = entries group ++ below) ∧
        ∀ op, Entry.operator op ∉ below.head? := by
  obtain ⟨waiting, enclosing⟩ := yard
  cases enclosing with
  | nil => exact ⟨[], fun group => by simp [stack_outermost], by simp⟩
  | cons outer rest => exact ⟨_, fun group => stack_inner group outer rest, by simp⟩

namespace Stack

/-- An operator takes off those of the group that leave the yard, and nothing below the group. -/
theorem yield_entries (op : Operator) {below : List Entry}
    (hbelow : ∀ top, Entry.operator top ∉ below.head?) (group : List Operator) :
    yield op (entries group ++ below) =
      ((group.takeWhile (yieldsTo op)).map .operator,
        entries (group.dropWhile (yieldsTo op)) ++ below) := by
  induction group with
  | nil =>
      cases below with
      | nil => rfl
      | cons entry below =>
          cases entry with
          | operator top => exact absurd rfl (hbelow top)
          | leftParen => rfl
  | cons top group ih =>
      by_cases hyield : op.precedence ≤ top.precedence
      · have hleaves : yieldsTo op top := decide_eq_true hyield
        rw [entries_cons, List.cons_append, yield, if_pos hyield, ih,
          List.takeWhile_cons_of_pos hleaves, List.dropWhile_cons_of_pos hleaves, List.map_cons]
      · have hstays : ¬yieldsTo op top := by simpa [yieldsTo] using hyield
        rw [entries_cons, List.cons_append, yield, if_neg hyield,
          List.takeWhile_cons_of_neg hstays, List.dropWhile_cons_of_neg hstays, List.map_nil,
          entries_cons, List.cons_append]

/-- Before a parenthesis is met, the whole group leaves. -/
theorem close_entries (group : List Operator) (below : List Entry) :
    close (entries group ++ below) =
      (close below).map fun (gone, stay) => (group.map .operator ++ gone, stay) := by
  induction group with
  | nil => cases hbelow : close below <;> simp [entries, hbelow, Except.map]
  | cons op group ih =>
      rw [entries_cons, List.cons_append, close, ih]
      cases close below <;> rfl

/-- **One token** does to the stack what it does to the yard. -/
theorem step_stack (yard : Yard) (token : Token) :
    step yard.stack token = (yard.step token).map fun (leaving, next) => (leaving, next.stack) := by
  cases token with
  | number n => rfl
  | identifier x => rfl
  | leftParen =>
      have hopen : Yard.stack ⟨[], yard.waiting :: yard.enclosing⟩ = .leftParen :: yard.stack :=
        Yard.stack_inner [] yard.waiting yard.enclosing
      simp only [step, Yard.step, Except.map, hopen]
  | operator op =>
      obtain ⟨below, hstack, hbelow⟩ := yard.exists_below
      have hyard : yard.stack = entries yard.waiting ++ below := hstack yard.waiting
      have hnext := hstack (op :: yard.waiting.dropWhile (yieldsTo op))
      rw [step, hyard, yield_entries op hbelow]
      simp only [Yard.step, Except.map, hnext]
      rfl
  | rightParen =>
      obtain ⟨waiting, enclosing⟩ := yard
      cases enclosing with
      | nil =>
          rw [step, Yard.stack_outermost, ← List.append_nil (entries waiting), close_entries]
          rfl
      | cons outer rest =>
          rw [step, Yard.stack_inner, close_entries]
          simp [close, Except.map, Yard.step]

/-- **A row of tokens** does to the stack what it does to the yard. -/
theorem run_stack (yard : Yard) (tokens : List Token) :
    run yard.stack tokens = (yard.run tokens).map fun (out, last) => (out, last.stack) := by
  induction tokens generalizing yard with
  | nil => rfl
  | cons token tokens ih =>
      rw [run, step_stack, Yard.run_cons]
      cases hstep : yard.step token with
      | error cause => rfl
      | ok result =>
          obtain ⟨leaving, next⟩ := result
          simp only [Except.map, bind, Except.bind, ih next]
          cases next.run tokens <;> rfl

/-- At the end of the row, the whole group leaves before what is below it. -/
theorem drain_entries (group : List Operator) (below : List Entry) :
    drain (entries group ++ below) = (drain below).map (group.map Token.operator ++ ·) := by
  induction group with
  | nil => cases hbelow : drain below <;> simp [entries, hbelow, Except.map]
  | cons op group ih =>
      rw [entries_cons, List.cons_append, drain, ih]
      cases drain below <;> rfl

/-- What is left on the stack at the end leaves as it leaves the yard. -/
theorem drain_stack (yard : Yard) : drain yard.stack = yard.drain := by
  obtain ⟨waiting, enclosing⟩ := yard
  cases enclosing with
  | nil =>
      rw [Yard.stack_outermost, ← List.append_nil (entries waiting), drain_entries]
      simp [drain, Except.map, Yard.drain]
  | cons outer rest =>
      rw [Yard.stack_inner, drain_entries]
      rfl

/-- What a front part of a row puts on the stack is all that the rest of the row needs. -/
theorem arrange_append {front out : List Token} {yard : Yard}
    (h : Yard.empty.run front = .ok (out, yard)) (rest : List Token) :
    arrange (front ++ rest) = do
      let (later, last) ← run yard.stack rest
      let late ← drain last
      return out ++ later ++ late := by
  rw [arrange, Yard.run_append, h, run_stack]
  simp only [bind, Except.bind, pure, Except.pure, Except.map]
  cases yard.run rest with
  | error cause => rfl
  | ok result =>
      obtain ⟨later, last⟩ := result
      simp only [drain_stack]

/-- What lies on the stack after a row is what waits in the yard. -/
theorem run_ok_iff {tokens out : List Token} {stack : List Entry} :
    run [] tokens = .ok (out, stack) ↔
      ∃ yard, Yard.empty.run tokens = .ok (out, yard) ∧ yard.stack = stack := by
  have hrun : run [] tokens = _ := run_stack Yard.empty tokens
  rw [hrun]
  cases Yard.empty.run tokens with
  | error cause => simp [Except.map]
  | ok result =>
      obtain ⟨early, yard⟩ := result
      simp [Except.map]

end Stack

/-! ## The order within a group -/

/-- The operators of a group bind the more tightly the later they came. -/
def Ascends (group : List Operator) : Prop :=
  group.Pairwise fun later earlier => earlier.precedence < later.precedence

/-- The operators of every open group bind the more tightly the later they came. -/
def Yard.Ascending (yard : Yard) : Prop :=
  ∀ group ∈ yard.waiting :: yard.enclosing, Ascends group

/-- What is left when an operator has taken off those that bind at least as tightly binds less
tightly. -/
theorem Ascends.push {group : List Operator} (h : Ascends group) (op : Operator) :
    Ascends (op :: group.dropWhile (yieldsTo op)) := by
  have hstay : Ascends (group.dropWhile (yieldsTo op)) := h.sublist (List.dropWhile_sublist _)
  refine List.pairwise_cons.2 ⟨?_, hstay⟩
  cases hrest : group.dropWhile (yieldsTo op) with
  | nil => simp
  | cons top below =>
      rw [hrest] at hstay
      have htop : top.precedence < op.precedence := by
        have hfirst := List.head?_dropWhile_not (yieldsTo op) group
        simpa [hrest, yieldsTo] using hfirst
      intro earlier hearlier
      rcases List.mem_cons.1 hearlier with rfl | hbelow
      · exact htop
      · have hlower := (List.pairwise_cons.1 hstay).1 earlier hbelow
        omega

/-- There is room for two operators in a group, one of each precedence. -/
theorem length_le_two {group : List Operator} (h : Ascends group) : group.length ≤ 2 := by
  have hlow : ∀ op : Operator, 1 ≤ op.precedence := by
    intro op
    cases op <;> decide
  have hhigh : ∀ op : Operator, op.precedence ≤ 2 := by
    intro op
    cases op <;> decide
  match group with
  | [] => simp
  | [_] => simp
  | [_, _] => simp
  | last :: middle :: first :: _ =>
      obtain ⟨hlast, hrest⟩ := List.pairwise_cons.1 h
      have hlastMiddle := hlast middle (by simp)
      have hmiddleFirst := (List.pairwise_cons.1 hrest).1 first (by simp)
      have hbottom := hlow first
      have htop := hhigh last
      omega

namespace Yard

theorem ascending_empty : empty.Ascending := by
  intro group hgroup
  obtain rfl : group = [] := by simpa [empty] using hgroup
  exact List.Pairwise.nil

/-- **One token** keeps the order in all groups. -/
theorem Ascending.step {yard next : Yard} {token : Token} {leaving : List Token}
    (hyard : yard.Ascending) (h : yard.step token = .ok (leaving, next)) : next.Ascending := by
  cases token with
  | number n => cases h; exact hyard
  | identifier x => cases h; exact hyard
  | operator op =>
      cases h
      intro group hgroup
      rcases List.mem_cons.1 hgroup with rfl | houter
      · exact (hyard yard.waiting List.mem_cons_self).push op
      · exact hyard group (List.mem_cons_of_mem _ houter)
  | leftParen =>
      cases h
      intro group hgroup
      rcases List.mem_cons.1 hgroup with rfl | houter
      · exact List.Pairwise.nil
      · exact hyard group houter
  | rightParen =>
      obtain ⟨henclosing, -⟩ := step_rightParen h
      intro group hgroup
      rw [← henclosing] at hgroup
      exact hyard group (List.mem_cons_of_mem _ hgroup)

/-- **A row of tokens** keeps the order in all groups. -/
theorem Ascending.run {yard last : Yard} {tokens out : List Token} (hyard : yard.Ascending)
    (h : yard.run tokens = .ok (out, last)) : last.Ascending := by
  induction tokens generalizing yard out with
  | nil => cases h; exact hyard
  | cons token tokens ih =>
      obtain ⟨leaving, next, later, hstep, hrun, -⟩ := run_cons_ok h
      exact ih (hyard.step hstep) hrun

end Yard

/-! ## The parentheses that stay open -/

/-- A parenthesis stays open if no front part of what follows it closes more than it opens. -/
def StaysOpen (rest : List Token) : Prop :=
  ∀ part, part <+: rest → part.count rightParen ≤ part.count leftParen

instance (rest : List Token) : Decidable (StaysOpen rest) :=
  decidable_of_iff (∀ part ∈ rest.inits, part.count rightParen ≤ part.count leftParen)
    (forall_congr' fun part => imp_congr_left (List.mem_inits part rest))

/-- The opening parentheses of a row that nothing in the row closes. -/
def unmatched : List Token → Nat
  | [] => 0
  | token :: rest =>
    if token = leftParen ∧ StaysOpen rest then unmatched rest + 1 else unmatched rest

/-- The closing parentheses of a row that close none of the row. -/
def surplus : List Token → Nat
  | [] => 0
  | .leftParen :: rest => surplus rest - 1
  | .rightParen :: rest => surplus rest + 1
  | _ :: rest => surplus rest

/-- The surplus is the most by which a front part of the row closes more than it opens. -/
theorem lt_surplus_iff {row : List Token} {k : Nat} :
    k < surplus row ↔ ∃ part, part <+: row ∧ part.count leftParen + k < part.count rightParen := by
  induction row generalizing k with
  | nil => simp [surplus]
  | cons token row ih =>
      -- The front part that holds no token closes nothing, so it may be left out.
      have hfronts : (∃ part, part <+: token :: row ∧
            part.count leftParen + k < part.count rightParen) ↔
          ∃ part, part <+: row ∧
            (token :: part).count leftParen + k < (token :: part).count rightParen := by
        simp [List.prefix_cons_iff, or_and_right, exists_or]
      rw [hfronts]
      cases token with
      | number n => simpa [surplus] using ih
      | identifier x => simpa [surplus] using ih
      | operator op => simpa [surplus] using ih
      | leftParen =>
          have hcloses : k < surplus row - 1 ↔ k + 1 < surplus row := by omega
          rw [surplus, hcloses, ih]
          refine exists_congr fun part => and_congr_right fun _ => ?_
          rw [List.count_cons_self, List.count_cons_of_ne (by decide)]
          omega
      | rightParen =>
          -- Already the front part that holds this token alone closes more than it opens.
          cases k with
          | zero => exact iff_of_true (Nat.succ_pos _) ⟨[], List.nil_prefix, by decide⟩
          | succ k =>
              rw [surplus, Nat.succ_lt_succ_iff, ih]
              refine exists_congr fun part => and_congr_right fun _ => ?_
              rw [List.count_cons_self, List.count_cons_of_ne (by decide)]
              omega

theorem staysOpen_iff {rest : List Token} : StaysOpen rest ↔ surplus rest = 0 := by
  have hmost : 0 < surplus rest ↔ _ := lt_surplus_iff
  constructor
  · intro h
    by_contra hne
    obtain ⟨part, hpart, hless⟩ := hmost.1 (Nat.pos_of_ne_zero hne)
    have hfront := h part hpart
    omega
  · intro h part hpart
    by_contra hless
    have hpos := hmost.2 ⟨part, hpart, by omega⟩
    omega

/-- Every closing parenthesis of a row belongs to an opening one or to the surplus. -/
theorem unmatched_add_count (row : List Token) :
    unmatched row + row.count rightParen = row.count leftParen + surplus row := by
  induction row with
  | nil => rfl
  | cons token row ih =>
      cases token with
      | number n => simpa [unmatched, surplus] using ih
      | identifier x => simpa [unmatched, surplus] using ih
      | operator op => simpa [unmatched, surplus] using ih
      | leftParen =>
          rw [List.count_cons_self, List.count_cons_of_ne (by decide), unmatched, surplus]
          by_cases hopen : StaysOpen row
          · have hnone := staysOpen_iff.1 hopen
            rw [if_pos ⟨rfl, hopen⟩]
            omega
          · have hsome : surplus row ≠ 0 := fun hnone => hopen (staysOpen_iff.2 hnone)
            rw [if_neg fun h => hopen h.2]
            omega
      | rightParen =>
          rw [List.count_cons_self, List.count_cons_of_ne (by decide), unmatched, surplus,
            if_neg (by simp)]
          omega

namespace Yard

/-- **The rows an empty yard takes in** are those in which an opening parenthesis in front would
stay open. -/
theorem exists_run_iff {front : List Token} :
    (∃ out yard, empty.run front = .ok (out, yard)) ↔ StaysOpen front := by
  have hempty : empty.depth = 0 := rfl
  constructor
  · rintro ⟨out, yard, hrun⟩ part ⟨rest, hsplit⟩
    rw [← hsplit] at hrun
    obtain ⟨early, between, later, hpart, -, -⟩ := run_append_cases hrun
    have hdepth := depth_run hpart
    omega
  · intro h
    refine run_of_front fun part rest hsplit => ?_
    have hpart := h part ⟨rest, hsplit⟩
    omega

/-- The groups that are open are as many as the parentheses that are. -/
theorem depth_eq_unmatched {front out : List Token} {yard : Yard}
    (h : empty.run front = .ok (out, yard)) : yard.depth = unmatched front := by
  have hempty : empty.depth = 0 := rfl
  have hdepth := depth_run h
  have hcount := unmatched_add_count front
  have hnone : surplus front = 0 := staysOpen_iff.1 (exists_run_iff.1 ⟨out, yard, h⟩)
  omega

/-! ## The shape of the stack -/

theorem leftParen_notMem_entries (group : List Operator) : Entry.leftParen ∉ entries group := by
  simp [entries]

/-- The stretches of the stack between the parentheses are the groups. -/
theorem splitOn_stack (yard : Yard) :
    yard.stack.splitOn .leftParen = (yard.waiting :: yard.enclosing).map entries := by
  refine List.splitOn_intercalate Entry.leftParen ?_ ?_
  · intro group hgroup
    obtain ⟨ops, -, rfl⟩ := List.mem_map.1 hgroup
    exact leftParen_notMem_entries ops
  · simp

/-- There is a parenthesis on the stack for each open group. -/
theorem count_stack (yard : Yard) : yard.stack.count .leftParen = yard.depth := by
  obtain ⟨waiting, enclosing⟩ := yard
  have hgroup : ∀ group, (entries group).count .leftParen = 0 :=
    fun group => List.count_eq_zero.2 (leftParen_notMem_entries group)
  induction enclosing generalizing waiting with
  | nil => rw [stack_outermost, hgroup]; rfl
  | cons outer rest ih =>
      rw [stack_inner, List.count_append, List.count_cons_self, hgroup, ih outer]
      simp [depth]

/-- The stack has three entries at most for each open group, and two for the outermost row. -/
theorem Ascending.length_stack_le {yard : Yard} (h : yard.Ascending) :
    yard.stack.length ≤ 3 * yard.depth + 2 := by
  obtain ⟨waiting, enclosing⟩ := yard
  induction enclosing generalizing waiting with
  | nil =>
      have hwaiting := length_le_two (h waiting List.mem_cons_self)
      simpa [stack_outermost, entries, depth] using hwaiting
  | cons outer rest ih =>
      have hwaiting := length_le_two (h waiting List.mem_cons_self)
      have hrest := ih outer fun group hgroup => h group (List.mem_cons_of_mem _ hgroup)
      rw [stack_inner, List.length_append, List.length_cons]
      simp only [depth, entries, List.length_map, List.length_cons] at hrest ⊢
      omega

end Yard

/-- **The one stack keeps its shape.**  It takes in the front part of a row exactly if an opening
parenthesis before the part would stay open, and it is then what the rest of the row needs.
Between two parentheses of the stack, below the lowest and above the highest, each operator binds
more tightly than the one it lies on, so there are two of them at most.  As many parentheses lie
on the stack as are open, and at most two entries more than three for each. -/
theorem one_stack_keeps_its_shape (front rest : List Token) :
    ((∃ out stack, Stack.run [] front = .ok (out, stack)) ↔ StaysOpen front) ∧
      ∀ out stack, Stack.run [] front = .ok (out, stack) →
        (arrange (front ++ rest) = do
          let (later, last) ← Stack.run stack rest
          let late ← Stack.drain last
          return out ++ later ++ late) ∧
          (∀ stretch ∈ stack.splitOn .leftParen, ∃ group : List Operator,
            stretch = entries group ∧
              (group.Pairwise fun upper lower => lower.precedence < upper.precedence) ∧
              group.length ≤ 2) ∧
          stack.count .leftParen = unmatched front ∧
          stack.length ≤ 3 * unmatched front + 2 := by
  constructor
  · rw [← Yard.exists_run_iff]
    simp only [Stack.run_ok_iff]
    exact ⟨fun ⟨out, _, yard, hrun, _⟩ => ⟨out, yard, hrun⟩,
      fun ⟨out, yard, hrun⟩ => ⟨out, _, yard, hrun, rfl⟩⟩
  · intro out stack h
    obtain ⟨yard, hrun, rfl⟩ := Stack.run_ok_iff.1 h
    have hascending : yard.Ascending := Yard.ascending_empty.run hrun
    have hdepth := Yard.depth_eq_unmatched hrun
    refine ⟨Stack.arrange_append hrun rest, ?_, ?_, ?_⟩
    · rw [Yard.splitOn_stack]
      intro stretch hstretch
      obtain ⟨group, hgroup, rfl⟩ := List.mem_map.1 hstretch
      have hgroup := hascending group hgroup
      exact ⟨group, rfl, hgroup, length_le_two hgroup⟩
    · rw [Yard.count_stack, hdepth]
    · have hlength := hascending.length_stack_le
      rwa [hdepth] at hlength

/-- The stack is as high as it may be in the midst of a row that is refused in the end. -/
theorem one_stack_keeps_its_shape_nested :
    Stack.run [] [number 1, operator .add, number 2, operator .mul, leftParen, number 3,
        operator .sub, number 4, operator .mul] =
      .ok ([number 1, number 2, number 3, number 4],
        [.operator .mul, .operator .sub, .leftParen, .operator .mul, .operator .add]) ∧
      [Entry.operator .mul, .operator .sub, .leftParen, .operator .mul, .operator .add].length =
        3 * 1 + 2 ∧
      unmatched [number 1, operator .add, number 2, operator .mul, leftParen, number 3,
        operator .sub, number 4, operator .mul] = 1 ∧
      arrange ([number 1, operator .add, number 2, operator .mul, leftParen, number 3,
        operator .sub, number 4, operator .mul] ++ [number 5, rightParen, rightParen]) =
          .error .unbalancedParentheses := by
  have hrun : Stack.run [] [number 1, operator .add, number 2, operator .mul, leftParen, number 3,
      operator .sub, number 4, operator .mul] =
        .ok ([number 1, number 2, number 3, number 4],
          [.operator .mul, .operator .sub, .leftParen, .operator .mul, .operator .add]) := by
    rfl
  obtain ⟨harrange, -, hcount, -⟩ :=
    (one_stack_keeps_its_shape _ [number 5, rightParen, rightParen]).2 _ _ hrun
  exact ⟨hrun, rfl, hcount.symm, harrange⟩

end ReversePolish

end Calculator
