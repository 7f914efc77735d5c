import Calculator.Error

/-!
# What is printed

Answers go to the standard output and failures to the standard error, each on
a line of its own.  What is printed first and what is printed next are put
together channel by channel.
-/

namespace Calculator

/-- The texts on the two output channels. -/
@[ext] structure Printed where
  stdout : Text
  stderr : Text
  deriving DecidableEq

namespace Printed

/-- Nothing on either channel. -/
def nothing : Printed := ⟨[], []⟩

/-- A line on the standard output. -/
def answer (line : Text) : Printed := ⟨line ++ ['\n'], []⟩

/-- A line on the standard error. -/
def complaint (line : Text) : Printed := ⟨[], line ++ ['\n']⟩

/-- What is printed first, and then what is printed next. -/
def append (first next : Printed) : Printed :=
  ⟨first.stdout ++ next.stdout, first.stderr ++ next.stderr⟩

/-- What one item of a transcript prints. -/
def ofItem : Except Error Text → Printed
  | .ok line => answer line
  | .error cause => complaint cause.message

/-- What a transcript prints. -/
def ofItems (items : List (Except Error Text)) : Printed :=
  items.foldr (fun item rest => (ofItem item).append rest) nothing

@[simp] theorem nothing_append (p : Printed) : nothing.append p = p := rfl

@[simp] theorem append_nothing (p : Printed) : p.append nothing = p := by
  simp [append, nothing]

theorem append_assoc (p q r : Printed) : (p.append q).append r = p.append (q.append r) := by
  simp [append]

@[simp] theorem ofItems_nil : ofItems [] = nothing := rfl

@[simp] theorem ofItems_cons (item : Except Error Text) (items : List (Except Error Text)) :
    ofItems (item :: items) = (ofItem item).append (ofItems items) := rfl

/-- Two transcripts in a row print one after the other. -/
theorem ofItems_append (first second : List (Except Error Text)) :
    ofItems (first ++ second) = (ofItems first).append (ofItems second) := by
  induction first with
  | nil => rfl
  | cons item first ih => simp [ih, append_assoc]

end Printed

end Calculator
