import DonationFlow.Address
import DonationFlow.Keccak
import DonationFlow.Word

/-!
# Call data

What a contract function is called with, and what it returns: words of 32
bytes, most significant byte first.  Call data starts with the selector of the
function.
-/

namespace DonationFlow

/-- The address as the low bits of a word. -/
def Address.word (address : Address) : Word :=
  ⟨address.toNat, Nat.lt_of_lt_of_le address.toNat_lt (Nat.pow_le_pow_right (by decide) (by decide))⟩

namespace CallData

/-- The last `count` bytes of a number, most significant first. -/
def bytes : (count n : Nat) → List UInt8
  | 0, _ => []
  | count + 1, n => bytes count (n / 256) ++ [UInt8.ofNat n]

/-- The number of these bytes, most significant first. -/
def number (data : List UInt8) : Nat := data.foldl (fun n byte => 256 * n + byte.toNat) 0

def wordBytes (word : Word) : List UInt8 := bytes 32 word.toNat

/-- The data of a call whose arguments are words. -/
def encode (signature : String) (arguments : List Word) : List UInt8 :=
  Keccak.selector signature ++ arguments.flatMap wordBytes

/-- The words that the data starts with; fewer than 32 bytes at the end are no
word. -/
def words (data : List UInt8) : List Word :=
  if _ : 32 ≤ data.length then Word.wrap (number (data.take 32)) :: words (data.drop 32) else []
  termination_by data.length
  decreasing_by simp only [List.length_drop]; omega

end CallData

end DonationFlow
