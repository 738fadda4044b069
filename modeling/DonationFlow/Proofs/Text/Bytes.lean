import DonationFlow.Text.Hex

/-!
# Written bytes

Bytes are read back from their hexadecimal digits in either letter case.  Main
statement: `WritesBytes.bytesOfHex_eq`.
-/

namespace DonationFlow.Text

/-- What is left of a byte array comes behind what was collected of it. -/
theorem toList_loop (data : ByteArray) (index : Nat) (collected : List UInt8) :
    ByteArray.toList.loop data index collected =
      collected.reverse ++ data.data.toList.drop index := by
  fun_induction ByteArray.toList.loop data index collected with
  | case1 index collected hlt ih =>
    have hindex : index < data.data.toList.length := hlt
    rw [ih, List.drop_eq_getElem_cons hindex]
    simp [ByteArray.get!, hlt]
  | case2 index collected hlt =>
    have hindex : data.data.toList.length ≤ index := Nat.le_of_not_lt hlt
    rw [List.drop_eq_nil_of_le hindex, List.append_nil]

theorem toList_toUTF8_ofList (text : List Char) :
    (String.ofList text).toUTF8.toList = text.flatMap String.utf8EncodeChar := by
  rw [ByteArray.toList, toList_loop]
  simp [String.toUTF8, String.ofList, List.utf8Encode, List.data_toByteArray]

/-- A character of one byte is that byte. -/
theorem utf8EncodeChar_of_lt {c : Char} (hc : c.toNat < 128) :
    String.utf8EncodeChar c = [UInt8.ofNat c.toNat] := by
  have hvalue : c.val.toNat ≤ 127 := Nat.le_of_lt_succ hc
  rw [String.utf8EncodeChar, if_pos hvalue]
  rfl

theorem flatMap_utf8EncodeChar_of_lt {text : List Char} (h : ∀ c ∈ text, c.toNat < 128) :
    text.flatMap String.utf8EncodeChar = text.map fun c => UInt8.ofNat c.toNat := by
  induction text with
  | nil => rfl
  | cons c text ih =>
    obtain ⟨hc, htext⟩ := List.forall_mem_cons.1 h
    rw [List.flatMap_cons, utf8EncodeChar_of_lt hc, ih htext]
    rfl

section Digits

variable {c : Char} {value index : Nat}

theorem toNat_lt_of_digit? (h : digit? 16 c = some value) : c.toNat < 128 := by
  simp only [digit?, Bool.and_eq_true, decide_eq_true_eq] at h
  refine Nat.lt_of_not_le fun hlarge => ?_
  have h48 : ¬(48 ≤ c.toNat ∧ c.toNat ≤ 57) := by omega
  have h97 : ¬(97 ≤ c.toNat ∧ c.toNat ≤ 122) := by omega
  have h65 : ¬(65 ≤ c.toNat ∧ c.toNat ≤ 90) := by omega
  simp [h48, h97, h65] at h

theorem toNat_toLower (c : Char) :
    c.toLower.toNat = if 65 ≤ c.toNat ∧ c.toNat ≤ 90 then c.toNat + 32 else c.toNat := by
  have hupper : c.val ≥ 'A'.val ∧ c.val ≤ 'Z'.val ↔ 65 ≤ c.toNat ∧ c.toNat ≤ 90 := Iff.rfl
  unfold Char.toLower
  split
  · rename_i h
    rw [if_pos (hupper.1 h)]
    have hsmall := (hupper.1 h).2
    have hsum : (c.val + ('a'.val - 'A'.val)).toNat = (c.toNat + 32) % 2 ^ 32 := UInt32.toNat_add ..
    rw [Nat.mod_eq_of_lt (by omega)] at hsum
    exact hsum
  · rename_i h
    rw [if_neg (mt hupper.2 h)]

/-- The letter case of a digit does not count. -/
theorem digit?_toLower (c : Char) : digit? 16 c.toLower = digit? 16 c := by
  simp only [digit?, toNat_toLower, Bool.and_eq_true, decide_eq_true_eq]
  by_cases hupper : 65 ≤ c.toNat ∧ c.toNat ≤ 90
  · have h48 : ¬(48 ≤ c.toNat ∧ c.toNat ≤ 57) := by omega
    have h97 : ¬(97 ≤ c.toNat ∧ c.toNat ≤ 122) := by omega
    have h48' : ¬(48 ≤ c.toNat + 32 ∧ c.toNat + 32 ≤ 57) := by omega
    have h97' : 97 ≤ c.toNat + 32 ∧ c.toNat + 32 ≤ 122 := by omega
    have hvalue : c.toNat + 32 - 87 = c.toNat - 55 := by omega
    simp only [if_pos hupper, if_neg h48, if_neg h97, if_neg h48', if_pos h97', hvalue]
  · simp only [if_neg hupper]

theorem hexDigitAt_of_digit? (h : digit? 16 c = some value) :
    hexDigitAt (UInt8.ofNat c.toNat) index = .ok value := by
  have hc : c.toNat < UInt8.size := Nat.lt_trans (toNat_lt_of_digit? h) (by decide)
  rw [hexDigitAt, UInt8.toNat_ofNat_of_lt' hc, Char.ofNat_toNat, h]

/-- A digit in either letter case. -/
theorem digit?_of_toLower_eq (hvalue : value < 16) (h : c.toLower = Nat.digitChar value) :
    digit? 16 c = some value := by
  rw [← digit?_toLower, h, digit?_digitChar hvalue (by decide)]

end Digits

variable {digits : List Char} {bytes : List UInt8}

/-- Digits that write bytes, in either letter case. -/
def WritesBytes (digits : List Char) (bytes : List UInt8) : Prop :=
  digits.map Char.toLower = hexBytes bytes

instance : Decidable (WritesBytes digits bytes) :=
  inferInstanceAs (Decidable (digits.map Char.toLower = hexBytes bytes))

theorem WritesBytes.eq_nil (h : WritesBytes digits []) : digits = [] := List.map_eq_nil_iff.1 h

/-- The first byte is written by the first two digits. -/
theorem WritesBytes.exists_cons {byte : UInt8} (h : WritesBytes digits (byte :: bytes)) :
    ∃ high low rest, digits = high :: low :: rest ∧
      digit? 16 high = some (byte.toNat / 16) ∧ digit? 16 low = some (byte.toNat % 16) ∧
      WritesBytes rest bytes := by
  have hbyte := byte.toNat_lt
  obtain ⟨high, tail, rfl, hhigh, htail⟩ := List.map_eq_cons_iff.1 h
  obtain ⟨low, rest, rfl, hlow, hrest⟩ := List.map_eq_cons_iff.1 htail
  exact ⟨high, low, rest, rfl, digit?_of_toLower_eq (by omega) hhigh,
    digit?_of_toLower_eq (by omega) hlow, hrest⟩

theorem WritesBytes.length_eq (h : WritesBytes digits bytes) :
    digits.length = 2 * bytes.length := by
  induction bytes generalizing digits with
  | nil => rw [h.eq_nil]; rfl
  | cons byte bytes ih =>
    obtain ⟨high, low, rest, rfl, -, -, hrest⟩ := h.exists_cons
    simp only [List.length_cons, ih hrest]
    omega

theorem WritesBytes.toNat_lt (h : WritesBytes digits bytes) : ∀ c ∈ digits, c.toNat < 128 := by
  induction bytes generalizing digits with
  | nil => simp [h.eq_nil]
  | cons byte bytes ih =>
    obtain ⟨high, low, rest, rfl, hhigh, hlow, hrest⟩ := h.exists_cons
    simp only [List.forall_mem_cons]
    exact ⟨toNat_lt_of_digit? hhigh, toNat_lt_of_digit? hlow, ih hrest⟩

theorem WritesBytes.bytesOfPairs_eq (h : WritesBytes digits bytes) (index : Nat) :
    bytesOfPairs index (digits.map fun c => UInt8.ofNat c.toNat) = .ok bytes := by
  induction bytes generalizing digits index with
  | nil => rw [h.eq_nil]; rfl
  | cons byte bytes ih =>
    obtain ⟨high, low, rest, rfl, hhigh, hlow, hrest⟩ := h.exists_cons
    have hbyte : UInt8.ofNat (16 * (byte.toNat / 16) + byte.toNat % 16) = byte := by
      rw [Nat.div_add_mod, UInt8.ofNat_toNat]
    simp only [List.map_cons, bytesOfPairs, hexDigitAt_of_digit? hhigh, hexDigitAt_of_digit? hlow,
      ih hrest]
    exact congrArg Except.ok (congrArg (· :: bytes) hbyte)

theorem WritesBytes.toList_toUTF8 (h : WritesBytes digits bytes) :
    (String.ofList digits).toUTF8.toList = digits.map fun c => UInt8.ofNat c.toNat := by
  rw [toList_toUTF8_ofList, flatMap_utf8EncodeChar_of_lt h.toNat_lt]

/-- What the digits write is read back. -/
theorem WritesBytes.bytesOfHex_eq (h : WritesBytes digits bytes) :
    bytesOfHex (String.ofList digits) = .ok bytes := by
  have heven : ¬(digits.map fun c => UInt8.ofNat c.toNat).length % 2 = 1 := by
    rw [List.length_map, h.length_eq]
    omega
  rw [bytesOfHex, h.toList_toUTF8, if_neg heven, h.bytesOfPairs_eq]

end DonationFlow.Text
