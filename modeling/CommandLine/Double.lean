/-!
# Binary floating-point values

Numbers written with a fraction or an exponent stand for the nearest value of the form
`mantissa * 2 ^ exponent` with a mantissa of at most 53 bits and an exponent between -1074 and
971; a value half way between two goes to the one with the even mantissa. Everything here is
exact arithmetic on natural numbers.

* `Double.ofScientific` — the value nearest to a decimal.
* `Double.toInt?` — the integer a value is, if it is one.
-/

namespace CommandLine

/-- A binary floating-point value. -/
inductive Double where
  /-- the value `mantissa * 2 ^ exponent` with a sign, which zero has as well -/
  | finite (negative : Bool) (mantissa : Nat) (exponent : Int)
  /-- beyond all finite values -/
  | infinite (negative : Bool)
  /-- not a number -/
  | nan
  deriving DecidableEq

namespace Double

/-- A power of two. -/
def powerOfTwo (n : Nat) : Nat := Nat.pow 2 n

/-- A power of ten. -/
def powerOfTen (n : Nat) : Nat := Nat.pow 10 n

/-- The quotient of two natural numbers, rounded to the nearest; a half goes to the even one. -/
def roundDiv (num den : Nat) : Nat :=
  let q := num / den
  let twice := 2 * (num % den)
  if twice < den then q
  else if twice = den then q + q % 2
  else q + 1

/-- The exponent for a positive quotient: the one that leaves 53 bits in front of the point, and
no less than the least there is. -/
def exponentOf (num den : Nat) : Int :=
  let guess : Int := (num.log2 : Int) - den.log2 - 52
  let fits : Bool :=
    if guess < 0 then den * powerOfTwo 52 ≤ num * powerOfTwo guess.natAbs
    else den * powerOfTwo guess.natAbs * powerOfTwo 52 ≤ num
  max (-1074) (if fits then guess else guess - 1)

/-- The value nearest to a positive quotient. -/
def ofQuotient (negative : Bool) (num den : Nat) : Double :=
  let e := exponentOf num den
  let m :=
    if e < 0 then roundDiv (num * powerOfTwo e.natAbs) den
    else roundDiv num (den * powerOfTwo e.natAbs)
  let m' := if m = powerOfTwo 53 then powerOfTwo 52 else m
  let e' := if m = powerOfTwo 53 then e + 1 else e
  if e' > 971 then infinite negative else finite negative m' e'

/-- How many digits a natural number is written with. -/
def digitCount (n : Nat) : Nat := (Nat.toDigits 10 n).length

/-- The value nearest to `digits * 10 ^ exponent`. A decimal whose first digit stands above the
309th place is beyond all finite values, and one below the 330th after the point is nearest to
zero; these two are told apart first, so that no power of ten grows with the exponent. -/
def ofScientific (negative : Bool) (digits : Nat) (exponent : Int) : Double :=
  let magnitude := exponent + digitCount digits
  if digits = 0 ∨ magnitude < -330 then finite negative 0 0
  else if magnitude > 310 then infinite negative
  else if exponent < 0 then ofQuotient negative digits (powerOfTen exponent.natAbs)
  else ofQuotient negative (digits * powerOfTen exponent.natAbs) 1

/-- A finite value without its sign, as a quotient. -/
def quotient (mantissa : Nat) (exponent : Int) : Nat × Nat :=
  if exponent < 0 then (mantissa, powerOfTwo exponent.natAbs)
  else (mantissa * powerOfTwo exponent.natAbs, 1)

/-- The integer a value is, if it is finite and has no fraction. -/
def toInt? : Double → Option Int
  | finite negative mantissa exponent =>
    let (num, den) := quotient mantissa exponent
    if num % den = 0 then
      some (if negative then -((num / den : Nat) : Int) else ((num / den : Nat) : Int))
    else none
  | _ => none

end Double

end CommandLine
