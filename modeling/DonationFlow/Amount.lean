import DonationFlow.Text.Blank
import DonationFlow.Text.Cut
import DonationFlow.Text.Numeral

/-!
# Amounts in text

An amount is typed as a decimal number of whole tokens and kept as a word in
the token's smallest unit.  A text that is no such number, has too many places
or leaves the range counts as zero, since it is read on every keystroke.
-/

namespace DonationFlow.Amount

def ten : Word := ⟨10, by decide⟩

/-- The word written by decimal digits, most significant first, every step of
the computation staying in range. -/
def word? (digits : List Char) : Option Word :=
  digits.foldlM
    (fun value c => do
      let digit ← Text.digit? 10 c
      let scaled ← value.mul? ten
      scaled.add? (Word.wrap digit))
    Word.zero

/-- The smallest units written by a trimmed text. -/
def units? (text : List Char) (decimals : Nat) : Option Word :=
  let (whole, fraction) := (Text.cut? '.' text).getD (text, [])
  if whole.isEmpty && fraction.isEmpty then none
  else if decimals < fraction.length then none
  else do
    let value ← word? (whole ++ fraction)
    let scale ← Word.ofNat? (Nat.pow 10 (decimals - fraction.length))
    value.mul? scale

/-- The smallest units written by a text, zero if it writes none. -/
def toUnits (text : String) (decimals : UInt8) : Word :=
  (units? (Text.trim text.toList) decimals.toNat).getD Word.zero

def dropTrailingZeros (digits : List Char) : List Char :=
  (digits.reverse.dropWhile (· = '0')).reverse

/-- The decimal text of an amount, with no superfluous zero. -/
def digitsOf (amount : Word) (decimals : Nat) : List Char :=
  let digits := Text.numeral 10 amount.toNat
  if decimals = 0 then digits
  else
    let padded := List.replicate (decimals + 1 - digits.length) '0' ++ digits
    let whole := padded.take (padded.length - decimals)
    let fraction := dropTrailingZeros (padded.drop (padded.length - decimals))
    if fraction.isEmpty then whole else whole ++ '.' :: fraction

/-- The decimal text of an amount in whole tokens, as in `1.5`. -/
def format (amount : Word) (decimals : UInt8) : String :=
  String.ofList (digitsOf amount decimals.toNat)

/-- Decimals of the settlement currency. -/
def settlementDecimals : UInt8 := 6

end DonationFlow.Amount
