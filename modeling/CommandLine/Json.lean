import CommandLine.Text
import CommandLine.Double

/-!
# JSON values

Data as the tools exchange it. The fields of an object keep the order in which they are written.
-/

namespace CommandLine

/-- A JSON value. -/
inductive Json where
  /-- no value -/
  | null
  /-- a truth value -/
  | bool (b : Bool)
  /-- a number written without fraction and exponent -/
  | int (n : Int)
  /-- a number written with a fraction or an exponent -/
  | float (x : Double)
  /-- a text -/
  | str (t : Text)
  /-- a list of values -/
  | arr (items : List Json)
  /-- named values -/
  | obj (fields : List (Text × Json))

namespace Json

/-- The value under a key. Where a key is written twice, the later value counts. -/
def find? (key : Text) (fields : List (Text × Json)) : Option Json :=
  (fields.reverse.find? fun f => f.1 == key).map (·.2)

/-- The value of a field of an object; other values have no fields. -/
def get? (key : Text) : Json → Option Json
  | obj fields => find? key fields
  | _ => none

/-- A text or nothing. -/
def ofText? : Option Text → Json
  | some t => str t
  | none => null

/-- A natural number. -/
def nat (n : Nat) : Json := int n

end Json

end CommandLine
