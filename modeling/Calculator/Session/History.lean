import Calculator.Session

/-!
# What the lines alone tell

The value of a name can be read off the lines of a session, without any
environment: the latest assignment to the name decides, and if it copies
another name, what the lines before it tell of that one.  An assignment that
copies a name of which nothing is told has failed, and the search goes on
before it.

The lines of a history are listed from the latest to the earliest.

* `value?_of_not_assignment` — only an assignment tells anything.
-/

namespace Calculator.History

/-- What the lines tell of a name. -/
def value? : List Text → Text → Option Int
  | [], _ => none
  | line :: earlier, name =>
    match Statement.parse line with
    | .ok (.assignment target source) =>
      let resolved := match source with
        | .literal n => some n
        | .copy other => value? earlier other
      if target = name then resolved.or (value? earlier name) else value? earlier name
    | _ => value? earlier name

/-- The names that the lines have given a value, the latest first. -/
def assigned : List Text → List Text
  | [] => []
  | line :: earlier =>
    match Statement.parse line with
    | .ok (.assignment target (.literal _)) => target :: assigned earlier
    | .ok (.assignment target (.copy other)) =>
      if (value? earlier other).isSome then target :: assigned earlier else assigned earlier
    | _ => assigned earlier

@[simp] theorem value?_nil (name : Text) : value? [] name = none := rfl

/-- A line that is no assignment tells nothing of any name. -/
theorem value?_of_not_assignment {line : Text}
    (h : ∀ target source, Statement.parse line ≠ .ok (.assignment target source))
    (earlier : List Text) (name : Text) : value? (line :: earlier) name = value? earlier name := by
  rw [value?]
  split
  · next target source heq => exact absurd heq (h target source)
  · rfl

example : value? ["a = 7".toList, "b = a".toList, "a = 5".toList] ['b'] = some 5 := by rfl

end Calculator.History
