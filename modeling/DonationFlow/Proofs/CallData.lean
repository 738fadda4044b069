import DonationFlow.CallData
import Mathlib.Algebra.Order.Ring.Nat

/-!
# Words as bytes

A word takes 32 bytes, from which it is read back, and less than that behind the
words does not count.  Call data is the selector of four bytes and the words of the
arguments.  Main statements: `selector_eq_of_mem_listed`, `words_flatMap_append`,
`words_drop_encode`.
-/

namespace DonationFlow.Keccak

@[simp] theorem length_tabulate (f : Nat → Nat → UInt64) : (tabulate f).length = 25 := by
  rw [tabulate, List.length_map, List.length_range]

theorem length_iota (state : Lanes) (constant : UInt64) :
    (iota state constant).length = state.length := by
  cases state <;> rfl

/-- Each round makes 25 lanes. -/
theorem length_permute {state : Lanes} (h : state.length = 25) : (permute state).length = 25 := by
  rw [permute]
  generalize roundConstants = constants
  induction constants generalizing state with
  | nil => exact h
  | cons constant constants ih =>
    refine ih ?_
    rw [length_iota, chi, length_tabulate]

theorem length_foldl_absorb (blocks : List (List UInt8)) {state : Lanes} (h : state.length = 25) :
    (blocks.foldl absorb state).length = 25 := by
  induction blocks generalizing state with
  | nil => exact h
  | cons block blocks ih =>
    refine ih (length_permute ?_)
    rw [List.length_map, List.length_range]

theorem length_laneBytes (word : UInt64) : (laneBytes word).length = 8 := by
  rw [laneBytes, List.length_map, List.length_range]

theorem length_flatMap_laneBytes (lanes : Lanes) :
    (lanes.flatMap laneBytes).length = 8 * lanes.length := by
  induction lanes with
  | nil => rfl
  | cons lane lanes ih =>
    rw [List.flatMap_cons, List.length_append, length_laneBytes, ih, List.length_cons]
    omega

theorem length_digest (message : List UInt8) : (digest message).length = 32 := by
  have hlanes : ((blocks (pad message)).foldl absorb (List.replicate 25 0)).length = 25 :=
    length_foldl_absorb _ List.length_replicate
  rw [digest, length_flatMap_laneBytes, List.length_take, hlanes]
  rfl

theorem length_selector (signature : String) : (selector signature).length = 4 := by
  rw [selector, List.length_take, length_digest]
  rfl

/-- The selectors of the functions that are read, as the interfaces of the contracts
list them. -/
def listed : List (String × List UInt8) :=
  [("balanceOf(address)", [0x70, 0xA0, 0x82, 0x31]),
   ("allowance(address,address)", [0xDD, 0x62, 0xED, 0x3E]),
   ("stakingPosition(address,uint256)", [0x23, 0x67, 0xBA, 0x86]),
   ("endowmentPosition(address,uint256)", [0x94, 0x31, 0xA1, 0x5C])]

/-- Known answers, which the permutation, its constants and the padding all go into. -/
theorem selector_eq_of_mem_listed : ∀ entry ∈ listed, selector entry.1 = entry.2 := by
  decide +kernel

end DonationFlow.Keccak

namespace DonationFlow.CallData

@[simp] theorem length_bytes (count n : Nat) : (bytes count n).length = count := by
  induction count generalizing n with
  | zero => rfl
  | succ count ih => rw [bytes, List.length_append, ih, List.length_singleton]

theorem number_append_singleton (data : List UInt8) (byte : UInt8) :
    number (data ++ [byte]) = 256 * number data + byte.toNat := by
  rw [number, List.foldl_append]
  rfl

theorem number_bytes (count n : Nat) : number (bytes count n) = n % 256 ^ count := by
  induction count generalizing n with
  | zero => rw [Nat.pow_zero, Nat.mod_one]; rfl
  | succ count ih =>
    have hbyte : (UInt8.ofNat n).toNat = n % 256 := UInt8.toNat_ofNat' ..
    rw [bytes, number_append_singleton, ih, hbyte, Nat.pow_succ', Nat.mod_mul, Nat.add_comm]

theorem length_wordBytes (word : Word) : (wordBytes word).length = 32 := length_bytes ..

theorem number_wordBytes (word : Word) : number (wordBytes word) = word.toNat := by
  have hlimit : wordLimit = 256 ^ 32 := by decide
  rw [wordBytes, number_bytes, Nat.mod_eq_of_lt (hlimit ▸ word.toNat_lt)]

theorem wrap_toNat (word : Word) : Word.wrap word.toNat = word :=
  Word.ext (Nat.mod_eq_of_lt word.toNat_lt)

/-- Less than 32 bytes are no word. -/
theorem words_of_lt {data : List UInt8} (h : data.length < 32) : words data = [] := by
  rw [words, dif_neg (Nat.not_le.2 h)]

theorem words_wordBytes_append (word : Word) (rest : List UInt8) :
    words (wordBytes word ++ rest) = word :: words rest := by
  have hlength := length_wordBytes word
  have hlong : 32 ≤ (wordBytes word ++ rest).length := by
    rw [List.length_append, hlength]
    omega
  rw [words, dif_pos hlong, List.take_left' hlength, List.drop_left' hlength, number_wordBytes,
    wrap_toNat]

/-- What is written as words is read as these words, whatever is left over behind. -/
theorem words_flatMap_append (list : List Word) {tail : List UInt8} (htail : tail.length < 32) :
    words (list.flatMap wordBytes ++ tail) = list := by
  induction list with
  | nil => exact words_of_lt htail
  | cons word list ih =>
    rw [List.flatMap_cons, List.append_assoc, words_wordBytes_append, ih]

variable (signature : String) (arguments : List Word)

theorem drop_encode : (encode signature arguments).drop 4 = arguments.flatMap wordBytes :=
  List.drop_left' (Keccak.length_selector signature)

/-- The arguments are read back from behind the selector. -/
theorem words_drop_encode : words ((encode signature arguments).drop 4) = arguments := by
  have htail : ([] : List UInt8).length < 32 := by decide
  have hwords := words_flatMap_append arguments htail
  rwa [List.append_nil, ← drop_encode signature arguments] at hwords

end DonationFlow.CallData
