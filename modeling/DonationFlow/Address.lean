import DonationFlow.Text.Hex

/-!
# Accounts, contracts and transactions

An account or contract is named by a 160-bit address, a transaction by a
256-bit hash.  Both are written with a fixed number of hexadecimal digits.
-/

namespace DonationFlow

/-- The number of addresses. -/
def addressLimit : Nat := Nat.pow 2 160

/-- The number of hashes. -/
def hashLimit : Nat := Nat.pow 2 256

@[ext] structure Address where
  toNat : Nat
  toNat_lt : toNat < addressLimit
  deriving DecidableEq

@[ext] structure TxHash where
  toNat : Nat
  toNat_lt : toNat < hashLimit
  deriving DecidableEq

namespace Address

instance : Repr Address := ⟨fun address _ => repr address.toNat⟩

instance : Inhabited Address := ⟨⟨0, by decide⟩⟩

def ofNat? (n : Nat) : Option Address :=
  if h : n < addressLimit then some ⟨n, h⟩ else none

/-- The mark `0x` and forty digits. -/
def text (address : Address) : String :=
  String.ofList ('0' :: 'x' :: Text.hexPadded 40 address.toNat)

/-- Forty digits in either case after an optional `0x` or `0X`. -/
def parse? (text : String) : Option Address :=
  let digits := match text.toList with
    | '0' :: 'x' :: digits | '0' :: 'X' :: digits => digits
    | digits => digits
  if digits.length = 40 then (Text.value? 16 digits).bind ofNat? else none

end Address

namespace TxHash

instance : Repr TxHash := ⟨fun hash _ => repr hash.toNat⟩

def ofNat? (n : Nat) : Option TxHash :=
  if h : n < hashLimit then some ⟨n, h⟩ else none

/-- The mark `0x` and sixty-four digits. -/
def text (hash : TxHash) : String :=
  String.ofList ('0' :: 'x' :: Text.hexPadded 64 hash.toNat)

/-- Sixty-four digits in either case after an optional `0x` or `0X`. -/
def parse? (text : String) : Option TxHash :=
  let digits := match text.toList with
    | '0' :: 'x' :: digits | '0' :: 'X' :: digits => digits
    | digits => digits
  if digits.length = 64 then (Text.value? 16 digits).bind ofNat? else none

/-- The number of bytes of a hash. -/
def width : Nat := 32

/-- Thirty-two bytes, the most significant first. -/
def ofBytes? (bytes : List UInt8) : Option TxHash :=
  if bytes.length = width then ofNat? (bytes.foldl (256 * · + ·.toNat) 0) else none

end TxHash

end DonationFlow
