import DonationFlow.Text.Radix

/-!
# Hexadecimal text

Numbers are written with or without leading zeros.  Bytes are written as two
digits each; reading them back checks the number of digits before the digits.
-/

namespace DonationFlow.Text

/-- The hexadecimal digits of `n`, filled with zeros to `width`. -/
def hexPadded (width n : Nat) : List Char :=
  let digits := numeral 16 n
  List.replicate (width - digits.length) '0' ++ digits

/-- The shortest hexadecimal form, as in `0x0`. -/
def hexNumber (n : Nat) : String := String.ofList ('0' :: 'x' :: numeral 16 n)

/-- The two digits of a byte. -/
def hexByte (byte : UInt8) : List Char :=
  [Nat.digitChar (byte.toNat / 16), Nat.digitChar (byte.toNat % 16)]

def hexBytes (bytes : List UInt8) : List Char := bytes.flatMap hexByte

/-- Why a text writes no bytes. -/
inductive HexFault where
  | oddDigits
  | badDigit (byte : UInt8) (index : Nat)
  deriving DecidableEq, Repr

/-- The byte as a character in single quotes; a quote, a backslash and a
control character are escaped. -/
def quotedByte (byte : UInt8) : String :=
  let c := Char.ofNat byte.toNat
  let body :=
    if c = '\x00' then "\\0"
    else if c = '\t' then "\\t"
    else if c = '\r' then "\\r"
    else if c = '\n' then "\\n"
    else if c = '\'' then "\\'"
    else if c = '\\' then "\\\\"
    else if byte < 0x20 || (0x7F ≤ byte && byte ≤ 0xA0) || byte == 0xAD then
      "\\u\x7b" ++ String.ofList (numeral 16 byte.toNat) ++ "\x7d"
    else String.singleton c
  "'" ++ body ++ "'"

def HexFault.message : HexFault → String
  | .oddDigits => "Odd number of digits"
  | .badDigit byte index => s!"Invalid character {quotedByte byte} at position {decimal index}"

def hexDigitAt (byte : UInt8) (index : Nat) : Except HexFault Nat :=
  match digit? 16 (Char.ofNat byte.toNat) with
  | some value => .ok value
  | none => .error (.badDigit byte index)

/-- The bytes written by pairs of digits, the first digit standing at `index`. -/
def bytesOfPairs (index : Nat) : List UInt8 → Except HexFault (List UInt8)
  | high :: low :: rest => do
    let h ← hexDigitAt high index
    let l ← hexDigitAt low (index + 1)
    let tail ← bytesOfPairs (index + 2) rest
    return UInt8.ofNat (16 * h + l) :: tail
  | _ => .ok []

/-- The bytes written by a text, which is read byte by byte. -/
def bytesOfHex (text : String) : Except HexFault (List UInt8) :=
  let bytes := text.toUTF8.toList
  if bytes.length % 2 = 1 then .error .oddDigits else bytesOfPairs 0 bytes

end DonationFlow.Text
