import CommandLine.Double
import CommandLine.Text.Decimal

/-!
# The shortest decimal of a floating-point value

A value is shown with the fewest digits that read back as the same value; of two such decimals of
the same length the nearer one is taken.

* `Double.place` — where the first digit of a quotient stands.
* `Double.shortest` — the digits and their exponent.
* `Double.toText` — the text: positional while the point stands at most sixteen places after the
  first digit and fewer than four zeros follow it directly, with an exponent elsewhere.
-/

namespace CommandLine

namespace Double

/-- The place of the first digit of a positive quotient: the quotient is below ten to this power
and no less than a tenth of that. Every positive value is above `10 ^ -340`. -/
def place (num den : Nat) : Int :=
  if den ≤ num then (digitCount (num / den) : Int)
  else
    match (List.range 340).find? fun k => den ≤ num * powerOfTen (k + 1) with
    | some k => -(k : Int)
    | none => -340

/-- The whole part of a quotient on the grid of steps `10 ^ e`. -/
def stepsBelow (num den : Nat) (e : Int) : Nat :=
  if e < 0 then num * powerOfTen e.natAbs / den else num / (den * powerOfTen e.natAbs)

/-- Whether the upper end of a step is nearer to a quotient than the lower one. -/
def nearerAbove (num den : Nat) (e : Int) (steps : Nat) : Bool :=
  if e < 0 then (2 * steps + 1) * den < 2 * num * powerOfTen e.natAbs
  else (2 * steps + 1) * den * powerOfTen e.natAbs < 2 * num

/-- The decimal of `n` digits that reads back as a value and is nearest to it, if there is one. -/
def decimalOf? (mantissa : Nat) (exponent : Int) (n : Nat) : Option (Nat × Int) :=
  let (num, den) := quotient mantissa exponent
  let e := place num den - n
  let low := stepsBelow num den e
  let readsBack := fun d => ofScientific false d e == finite false mantissa exponent
  if readsBack low && readsBack (low + 1) then
    some (if nearerAbove num den e low then (low + 1, e) else (low, e))
  else if readsBack low then some (low, e)
  else if readsBack (low + 1) then some (low + 1, e)
  else none

/-- The fewest digits that read back as a value, and their exponent. Seventeen are always enough. -/
def shortest (mantissa : Nat) (exponent : Int) : Nat × Int :=
  ((List.range 17).findSome? fun n => decimalOf? mantissa exponent (n + 1)).getD (0, 0)

/-- Digits without the zeros at their end. -/
def stripZeros (ds : Text) : Text := (ds.reverse.dropWhile (· == '0')).reverse

/-- The text of some digits whose point stands `point` places after the first. -/
def showDigits (ds : Text) (point : Int) : Text :=
  let zeros := fun (n : Int) => List.replicate n.toNat '0'
  if -4 < point ∧ point ≤ 16 then
    if point ≤ 0 then ['0', '.'] ++ zeros (-point) ++ ds
    else if (ds.length : Int) ≤ point then ds ++ zeros (point - ds.length) ++ ['.', '0']
    else ds.take point.toNat ++ '.' :: ds.drop point.toNat
  else
    let e := point - 1
    let digits := Text.ofNat e.natAbs
    let fraction := if ds.length ≤ 1 then [] else '.' :: ds.drop 1
    ds.take 1 ++ fraction ++ ['e', if e < 0 then '-' else '+']
      ++ List.replicate (2 - digits.length) '0' ++ digits

/-- A value as a text. -/
def toText : Double → Text
  | nan => "nan".toList
  | infinite negative => (if negative then ['-'] else []) ++ "inf".toList
  | finite negative mantissa exponent =>
    let sign := if negative then ['-'] else []
    if mantissa = 0 then sign ++ "0.0".toList
    else
      let (digits, e) := shortest mantissa exponent
      let all := Text.ofNat digits
      sign ++ showDigits (stripZeros all) (all.length + e)

end Double

end CommandLine
