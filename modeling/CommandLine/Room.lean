import CommandLine.Json.Write

/-!
# Room

A command line of groups that stand deep inside one another is read with as many calls on the stack,
and a value that is written out takes memory. How much of either there is depends on the machine.

* `Room` — what there is room for.
* `Failure` — what goes wrong where there is no room.
* `Room.enter` — going into groups that stand inside one another.
* `Room.write` — writing a JSON value.
-/

namespace CommandLine

/-- What there is room for. -/
structure Room where
  /-- how many groups may stand inside one another -/
  levels : Nat
  /-- what is said of groups that stand deeper -/
  complaint : Text
  /-- how many characters a text may have -/
  memory : Nat

/-- Why there is no answer to a command line that has been read. -/
inductive Failure where
  /-- groups stand too deep inside one another -/
  | tooDeep (message : Text)
  /-- the indentation is a number that nothing can be counted by -/
  | notIndex
  /-- a text is too long -/
  | outOfMemory
  deriving DecidableEq

/-- What is said about a failure. -/
def Failure.message : Failure → Text
  | tooDeep message => message
  | notIndex => "cannot fit 'int' into an index-sized integer".toList
  | outOfMemory => []

/-- Whether characters can be counted by a number: whether it has no more than 64 bits. -/
def IsIndex (n : Int) : Prop := -9223372036854775808 ≤ n ∧ n < 9223372036854775808

instance (n : Int) : Decidable (IsIndex n) := inferInstanceAs (Decidable (_ ∧ _))

namespace Room

/-- Goes into groups that stand inside one another. -/
def enter (room : Room) (depth : Nat) : Except Failure Unit :=
  if depth ≤ room.levels then .ok () else .error (.tooDeep room.complaint)

/-- Keeps a text. -/
def hold (room : Room) (t : Text) : Except Failure Text :=
  if t.length ≤ room.memory then .ok t else .error .outOfMemory

/-- Writes a JSON value. The indentation of one level is made before anything else, so that it must
fit into the memory, too. -/
def write (room : Room) (indent : Option Int) (v : Json) : Except Failure Text :=
  match indent with
  | none => room.hold (v.write none)
  | some n =>
    if ¬IsIndex n then .error .notIndex
    else if n ≤ room.memory then room.hold (v.write (some n))
    else .error .outOfMemory

end Room

end CommandLine
