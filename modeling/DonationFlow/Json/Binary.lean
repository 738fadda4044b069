import DonationFlow.Text.Radix

/-!
# Binary numbers

A number that is no integer of 64 bits is kept as a binary number with 53
significant bits.  It is computed from the leading digits and a power of ten,
every step rounded to the nearest number, ties to even, and shown by the fewest
digits that read back as the same number.
-/

namespace DonationFlow.Json

/-- The number `mantissa * 2 ^ exponent`. -/
structure Binary where
  mantissa : Nat
  exponent : Int
  deriving DecidableEq, Repr

namespace Binary

def zero : Binary := ⟨0, 0⟩

/-- The least exponent. -/
def minExponent : Int := -1074

/-- The greatest exponent. -/
def maxExponent : Int := 971

def isZero (number : Binary) : Bool := number.mantissa = 0

/-- Whether the number is in range. -/
def isFinite (number : Binary) : Bool := number.exponent ≤ maxExponent

/-- The quotient in units of `2 ^ exponent`, rounded to the nearest, ties to
even. -/
def roundedAt (num den : Nat) (exponent : Int) : Nat :=
  let num := num * Nat.pow 2 (-exponent).toNat
  let den := den * Nat.pow 2 exponent.toNat
  let whole := num / den
  let rest := 2 * (num % den)
  if den < rest || (rest = den && whole % 2 = 1) then whole + 1 else whole

/-- The number nearest to a quotient; it may be out of range. -/
def ofRatio (num den : Nat) : Binary :=
  if num = 0 then zero
  else
    let guess : Int := (Nat.log2 num : Int) - Nat.log2 den - 53
    let tooLow : Bool :=
      den * Nat.pow 2 (guess + 53).toNat ≤ num * Nat.pow 2 (-(guess + 53)).toNat
    let exponent := max minExponent (if tooLow then guess + 1 else guess)
    let mantissa := roundedAt num den exponent
    if mantissa = 0 then zero
    else if mantissa = Nat.pow 2 53 then ⟨Nat.pow 2 52, exponent + 1⟩
    else ⟨mantissa, exponent⟩

/-- The number as a quotient. -/
def ratio (number : Binary) : Nat × Nat :=
  (number.mantissa * Nat.pow 2 number.exponent.toNat, Nat.pow 2 (-number.exponent).toNat)

def mul (left right : Binary) : Binary :=
  ofRatio (left.ratio.1 * right.ratio.1) (left.ratio.2 * right.ratio.2)

def div (left right : Binary) : Binary :=
  ofRatio (left.ratio.1 * right.ratio.2) (left.ratio.2 * right.ratio.1)

/-- The greatest power of ten in range. -/
def maxPower : Nat := 308

def tenTo (power : Nat) : Binary := ofRatio (Nat.pow 10 power) 1

/-- The number times a negative power of ten, in steps that stay in range. -/
def shrink : (steps : Nat) → (power : Nat) → Binary → Binary
  | 0, _, _ => zero
  | steps + 1, power, number =>
    if power ≤ maxPower then number.div (tenTo power)
    else if number.isZero then zero
    else shrink steps (power - maxPower) (number.div (tenTo maxPower))

/-- The number `significand * 10 ^ power`, none if it is out of range.  A
significand of 64 bits vanishes within four steps. -/
def scaled? (significand : Nat) (power : Int) : Option Binary :=
  let number := ofRatio significand 1
  if number.isZero then some zero
  else if power < 0 then some (shrink 4 power.natAbs number)
  else if power ≤ maxPower then some (number.mul (tenTo power.toNat)) |>.filter isFinite
  else none

/-- The number of decimal digits before the point. -/
def point (num den : Nat) : Int :=
  let guess : Int := ((Text.numeral 10 num).length : Int) - (Text.numeral 10 den).length
  if den * Nat.pow 10 guess.toNat ≤ num * Nat.pow 10 (-guess).toNat then guess + 1 else guess

/-- The decimal of `count` digits nearest to the number among those that read
back as it, if there is one, in units of `10 ^ power`. -/
def decimalAt? (number : Binary) (power : Int) : Option Nat :=
  let (num, den) := number.ratio
  let num := num * Nat.pow 10 (-power).toNat
  let den := den * Nat.pow 10 power.toNat
  let low := num / den
  let rest := 2 * (num % den)
  let same := fun count : Nat =>
    decide (ofRatio (count * Nat.pow 10 power.toNat) (Nat.pow 10 (-power).toNat) = number)
  let (near, far) :=
    if den < rest || (rest = den && low % 2 = 1) then (low + 1, low) else (low, low + 1)
  if same near then some near else if same far then some far else none

/-- The fewest digits that read back as the number, and its power of ten. -/
def shortest (number : Binary) : (tries : Nat) → (power : Int) → Nat × Int
  | 0, power => (((number.decimalAt? power).getD 0), power)
  | tries + 1, power =>
    match number.decimalAt? power with
    | some count => (count, power)
    | none => number.shortest tries (power - 1)

/-- The significant digits, and the number of them before the point. -/
def digits (number : Binary) : List Char × Int :=
  if number.isZero then ([], 0)
  else
    let (num, den) := number.ratio
    let (count, power) := number.shortest 16 (point num den - 1)
    let written := Text.numeral 10 count
    ((written.reverse.dropWhile (· = '0')).reverse, written.length + power)

end Binary

end DonationFlow.Json
