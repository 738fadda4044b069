import DonationFlow.Text.Radix
import DonationFlow.Word

/-!
# Numbers in text

Words are read in several radices with `_` as a separator; plain counters are
read as decimal digits under a bound.
-/

namespace DonationFlow.Text

/-- A word in the given radix; `_` is skipped and no digit at all writes zero. -/
def word? (radix : Nat) (digits : List Char) : Option Word :=
  (value? radix (digits.filter (· ≠ '_'))).bind Word.ofNat?

/-- A word whose radix is chosen by its first two characters, else decimal. -/
def prefixedWord? (text : String) : Option Word :=
  match text.toList with
  | '0' :: 'x' :: digits | '0' :: 'X' :: digits => word? 16 digits
  | '0' :: 'o' :: digits | '0' :: 'O' :: digits => word? 8 digits
  | '0' :: 'b' :: digits | '0' :: 'B' :: digits => word? 2 digits
  | digits => word? 10 digits

/-- A decimal counter below `bound`; one leading `+` is allowed. -/
def counter? (bound : Nat) (text : String) : Option Nat :=
  let digits := match text.toList with
    | '+' :: digits => digits
    | digits => digits
  if digits.isEmpty then none
  else (value? 10 digits).filter (· < bound)

/-- A quantity with the mark `0x`; no digit at all writes zero. -/
def quantity? (text : String) : Option Word :=
  match text.toList with
  | '0' :: 'x' :: digits => word? 16 digits
  | _ => none

end DonationFlow.Text

namespace DonationFlow.Word

/-- The decimal digits of the word. -/
def text (word : Word) : String := Text.decimal word.toNat

end DonationFlow.Word
