import CommandLine.Text

/-!
# References in values

A value may refer to variables: the name of the variable stands in braces after a dollar sign, and
a colon and a hyphen may follow the name with a text that stands in for a variable that does not
exist. What is not a whole reference stands for itself.

* `fragments` — the characters and references that a value consists of.
* `expand` — a value with its references replaced.
-/

namespace CommandLine.Reference

/-- The part of a value after a dollar sign and an opening brace: the name, what stands in for it,
and what follows the closing brace. -/
def read? (t : Text) : Option (Text × Text × Text) :=
  let isNamePart := fun (c : Char) => c != ':' && c != '\x7d'
  match t.dropWhile isNamePart with
  | '\x7d' :: rest => some (t.takeWhile isNamePart, [], rest)
  | ':' :: '-' :: rest =>
    match rest.dropWhile (· != '\x7d') with
    | [] => none
    | _ :: after => some (t.takeWhile isNamePart, rest.takeWhile (· != '\x7d'), after)
  | _ => none

/-- What follows a reference is shorter than what it is read from. -/
theorem length_read?_lt {t name standIn rest : Text} (h : read? t = some (name, standIn, rest)) :
    rest.length < t.length := by
  rw [read?] at h
  split at h
  · next hr =>
    cases h
    exact Text.length_lt_of_dropWhile_eq_cons hr
  · next hr =>
    have ht := Text.length_lt_of_dropWhile_eq_cons hr
    rw [List.length_cons] at ht
    split at h
    · cases h
    · next ha =>
      cases h
      have := Text.length_lt_of_dropWhile_eq_cons ha
      omega
  · cases h

/-- A part of a value. -/
inductive Fragment where
  /-- a character that stands for itself -/
  | plain (c : Char)
  /-- a reference to a variable, and the text that stands in for it -/
  | reference (name standIn : Text)

/-- The parts of a value. -/
def fragments : Text → List Fragment
  | [] => []
  | c :: cs =>
    match _ : if c = '$' ∧ cs.head? = some '\x7b' then read? (cs.drop 1) else none with
    | some (name, standIn, rest) => .reference name standIn :: fragments rest
    | none => .plain c :: fragments cs
termination_by t => t.length
decreasing_by
  · next h =>
    split at h
    · have := length_read?_lt h
      simp only [List.length_drop, List.length_cons] at *
      omega
    · cases h
  · simp

/-- What a part of a value stands for, given the variables. -/
def Fragment.expand (lookup : Text → Option Text) : Fragment → Text
  | plain c => [c]
  | reference name standIn => (lookup name).getD standIn

/-- A value with its references replaced. -/
def expand (lookup : Text → Option Text) (t : Text) : Text :=
  (fragments t).flatMap (Fragment.expand lookup)

/-- The names that a value refers to. -/
def names (t : Text) : List Text :=
  (fragments t).filterMap fun
    | .plain _ => none
    | .reference name _ => some name

end CommandLine.Reference
