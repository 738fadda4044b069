import DonationFlow.Json.Binary
import DonationFlow.Json.Value

/-!
# JSON numbers

A literal with neither fraction nor exponent that fits 64 bits is an integer.
Any other is a decimal, computed as a binary number from the digits that fit 64
bits: from `1e-5` to below `1e16` it is written out, else with an exponent and
its sign.
-/

namespace DonationFlow.Json

/-- A number as written: the digits before and after the point and the
exponent. -/
structure Literal where
  negative : Bool
  whole : List Char
  fraction : Option (List Char)
  exponent : Option Int
  deriving DecidableEq, Repr

namespace Literal

/-- Whether the literal is written as an integer. -/
def isWhole (literal : Literal) : Bool := literal.fraction.isNone && literal.exponent.isNone

/-- A further digit of a significand, if the result fits 64 bits. -/
def digitOn? (significand : Nat) (c : Char) : Option Nat :=
  let next := 10 * significand + (Text.digit? 10 c).getD 0
  if next < Nat.pow 2 64 then some next else none

/-- The leading digits that fit, and the number of those left out. -/
def leading (significand : Nat) : List Char → Nat × Nat
  | [] => (significand, 0)
  | c :: rest =>
    match digitOn? significand c with
    | some next => leading next rest
    | none => (significand, rest.length + 1)

/-- The significand and the power of ten of a literal; digits that do not fit
are dropped. -/
def significand (literal : Literal) : Nat × Int :=
  let (whole, dropped) := leading 0 literal.whole
  let fraction := literal.fraction.getD []
  let (significand, unread) := leading whole fraction
  (significand, (dropped : Int) - (fraction.length - unread : Nat) + literal.exponent.getD 0)

/-- The written form of `0.d₁d₂… · 10 ^ point`. -/
def layout (digits : List Char) (point : Int) : List Char :=
  let count : Int := digits.length
  if digits.isEmpty then "0.0".toList
  else if 0 < point && point ≤ 16 then
    if count ≤ point then digits ++ List.replicate (point - count).toNat '0' ++ ".0".toList
    else digits.take point.toNat ++ '.' :: digits.drop point.toNat
  else if -5 < point && point ≤ 0 then
    "0.".toList ++ List.replicate (-point).toNat '0' ++ digits
  else
    let mantissa := match digits with
      | first :: second :: rest => first :: '.' :: second :: rest
      | short => short
    let power := point - 1
    mantissa ++ 'e' :: (if power < 0 then '-' else '+') :: Text.numeral 10 power.natAbs

/-- The value of a literal; none if it is too large for any number. -/
def value? (literal : Literal) : Option Json :=
  let magnitude := (Text.value? 10 literal.whole).getD 0
  let fits := if literal.negative then 0 < magnitude && magnitude ≤ Nat.pow 2 63
    else magnitude < Nat.pow 2 64
  if literal.isWhole && fits then
    some (.int (if literal.negative then -(magnitude : Int) else magnitude))
  else do
    let (significand, power) := literal.significand
    let (digits, point) := (← Binary.scaled? significand power).digits
    let sign := if literal.negative then ['-'] else []
    return .decimal (String.ofList (sign ++ layout digits point))

end Literal

end DonationFlow.Json
