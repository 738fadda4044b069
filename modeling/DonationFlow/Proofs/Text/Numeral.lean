import DonationFlow.Text.Hex

/-!
# Written numbers

A number is known by its digits, with or without zeros in front.  Main
statements: `numeral_inj` and `value?_hexPadded`.
-/

namespace DonationFlow.Text

theorem numeral_inj {radix left right : Nat} (hlow : 2 ≤ radix) (hhigh : radix ≤ 16) :
    numeral radix left = numeral radix right ↔ left = right := by
  constructor
  · intro h
    have hvalue := value?_numeral hlow hhigh left
    rw [h, value?_numeral hlow hhigh right] at hvalue
    exact (Option.some.inj hvalue).symm
  · rintro rfl
    rfl

/-- Decimal numerals are those of the core library. -/
theorem numeral_ten_eq (n : Nat) : numeral 10 n = Nat.toDigits 10 n := by
  induction n using Nat.strongRecOn with
  | _ n ih =>
    unfold numeral
    split
    · rename_i h
      rw [ih (n / 10) (Nat.div_lt_self (by omega) (by omega)),
        Nat.toDigits_of_base_le (by omega) h.2]
    · rw [Nat.toDigits_of_lt_base (by omega)]

theorem isDigit_of_mem_numeral {n : Nat} {c : Char} (h : c ∈ numeral 10 n) :
    c.isDigit = true :=
  Nat.isDigit_of_mem_toDigits (by omega) (by omega) (numeral_ten_eq n ▸ h)

/-- A number below a power of the radix has no more digits than its exponent. -/
theorem length_numeral_le {radix width n : Nat} (hwidth : 0 < width) (h : n < Nat.pow radix width) :
    (numeral radix n).length ≤ width := by
  induction width generalizing n with
  | zero => cases hwidth
  | succ width ih =>
    unfold numeral
    split
    · rename_i hlarge
      have hquotient : n / radix < Nat.pow radix width :=
        Nat.div_lt_of_lt_mul (Nat.mul_comm radix _ ▸ h)
      have hpositive : 0 < width := by
        rcases Nat.eq_zero_or_pos width with rfl | hpositive
        · have hdigit : n < 1 * radix := h
          omega
        · exact hpositive
      have := ih hpositive hquotient
      simp only [List.length_append, List.length_singleton]
      omega
    · simp

/-- Zeros in front do not count. -/
theorem value?_replicate_zero (radix count : Nat) (hradix : 0 < radix) (digits : List Char) :
    value? radix (List.replicate count '0' ++ digits) = value? radix digits := by
  induction count with
  | zero => rfl
  | succ count ih =>
    have hzero : digit? radix '0' = some 0 := by simp [digit?, hradix]
    rw [← ih, List.replicate_succ, List.cons_append]
    simp only [value?, List.foldlM_cons, hzero]
    rfl

theorem value?_hexPadded (width n : Nat) : value? 16 (hexPadded width n) = some n := by
  rw [hexPadded, value?_replicate_zero 16 _ (by omega)]
  exact value?_numeral (by omega) (by omega) n

theorem hexPadded_inj {width left right : Nat} :
    hexPadded width left = hexPadded width right ↔ left = right := by
  constructor
  · intro h
    have hvalue := value?_hexPadded width left
    rw [h, value?_hexPadded] at hvalue
    exact (Option.some.inj hvalue).symm
  · rintro rfl
    rfl

theorem length_hexPadded {width n : Nat} (hwidth : 0 < width) (h : n < Nat.pow 16 width) :
    (hexPadded width n).length = width := by
  have := length_numeral_le hwidth h
  simp only [hexPadded, List.length_append, List.length_replicate]
  omega

theorem hexNumber_inj {left right : Nat} : hexNumber left = hexNumber right ↔ left = right := by
  rw [hexNumber, hexNumber, String.ofList_inj, List.cons.injEq, List.cons.injEq,
    numeral_inj (by omega) (by omega)]
  simp

end DonationFlow.Text
