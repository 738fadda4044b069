import DonationFlow.Proofs.Text.Numeral
import DonationFlow.Text.Numeral
import Mathlib.Algebra.Order.Ring.Nat
import Mathlib.Data.List.DropRight

/-!
# Decimal digits

The number that decimal digits write, and how far it tells the digits: exactly
among lists of one length, and up to zeros at an end among all.  Counters are read by it.
Main statements: `decimalValue_inj` and the two lemmas on zeros that follow it, and
`counter?_eq_some_iff`.
-/

namespace DonationFlow.Text

variable {left right digits : List Char} {c : Char}

/-- ASCII decimal digits and nothing else. -/
def IsDigits (digits : List Char) : Prop := ∀ c ∈ digits, c.isDigit = true

/-- The number that decimal digits write. -/
def decimalValue (digits : List Char) : Nat := Nat.ofDigitChars 10 digits 0

theorem isDigits_append : IsDigits (left ++ right) ↔ IsDigits left ∧ IsDigits right := by
  simp only [IsDigits, List.mem_append]
  exact ⟨fun h => ⟨fun c hc => h c (Or.inl hc), fun c hc => h c (Or.inr hc)⟩,
    fun h c hc => hc.elim (h.1 c) (h.2 c)⟩

theorem isDigits_zeros (count : Nat) : IsDigits (List.replicate count '0') := by
  intro c hc
  rw [List.eq_of_mem_replicate hc]
  decide

theorem isDigit_iff : c.isDigit = true ↔ 48 ≤ c.toNat ∧ c.toNat ≤ 57 := Char.isDigit_iff_toNat

/-- The digits below ten are those of ASCII. -/
theorem digit?_ten_eq_some_iff {value : Nat} :
    digit? 10 c = some value ↔ c.isDigit = true ∧ value = c.toNat - 48 := by
  rw [isDigit_iff]
  simp only [digit?, Bool.and_eq_true, decide_eq_true_eq]
  split_ifs <;> simp <;> omega

@[simp] theorem decimalValue_nil : decimalValue [] = 0 := rfl

theorem decimalValue_append (left right : List Char) :
    decimalValue (left ++ right) = 10 ^ right.length * decimalValue left + decimalValue right := by
  rw [decimalValue, Nat.ofDigitChars_append, Nat.ofDigitChars_eq_ofDigitChars_zero]
  rfl

theorem decimalValue_concat (digits : List Char) (c : Char) :
    decimalValue (digits ++ [c]) = 10 * decimalValue digits + (c.toNat - 48) := by
  rw [decimalValue_append]
  simp [decimalValue, Nat.ofDigitChars_cons]

@[simp] theorem decimalValue_zeros (count : Nat) :
    decimalValue (List.replicate count '0') = 0 := by
  simp [decimalValue, Nat.ofDigitChars_replicate_zero]

theorem decimalValue_append_zeros (digits : List Char) (count : Nat) :
    decimalValue (digits ++ List.replicate count '0') = decimalValue digits * 10 ^ count := by
  rw [decimalValue_append]
  simp [Nat.mul_comm]

theorem decimalValue_zeros_append (count : Nat) (digits : List Char) :
    decimalValue (List.replicate count '0' ++ digits) = decimalValue digits := by
  rw [decimalValue_append]
  simp

theorem isDigits_numeral (n : Nat) : IsDigits (numeral 10 n) :=
  fun _ hc => isDigit_of_mem_numeral hc

theorem decimalValue_numeral (n : Nat) : decimalValue (numeral 10 n) = n := by
  rw [numeral_ten_eq]
  exact Nat.ofDigitChars_toDigits (by omega) (by omega)

/-- Only the numeral of zero begins with a zero. -/
theorem eq_zero_of_head?_numeral {n : Nat} (h : (numeral 10 n).head? = some '0') : n = 0 := by
  induction n using Nat.strongRecOn with
  | _ n ih =>
    unfold numeral at h
    split at h
    · rename_i hlarge
      rw [List.head?_append_of_ne_nil _ (numeral_ne_nil 10 _)] at h
      have := ih (n / 10) (Nat.div_lt_self (by omega) (by omega)) h
      omega
    · exact Nat.digitChar_eq_zero.1 (Option.some.inj h)

/-! ## Digits from their number -/

/-- Digits of one length are told by the number they write. -/
theorem decimalValue_inj (hleft : IsDigits left) (hright : IsDigits right)
    (hlength : left.length = right.length) :
    decimalValue left = decimalValue right ↔ left = right := by
  refine ⟨fun hvalue => ?_, congrArg decimalValue⟩
  induction left using List.reverseRecOn generalizing right with
  | nil => exact (List.eq_nil_of_length_eq_zero hlength.symm).symm
  | append_singleton left c ih =>
    obtain ⟨right, d, rfl⟩ : ∃ init last, right = init ++ [last] := by
      refine ⟨right.dropLast, right.getLast ?_, (List.dropLast_append_getLast _).symm⟩
      rintro rfl
      simp at hlength
    obtain ⟨hleft, hc⟩ := isDigits_append.1 hleft
    obtain ⟨hright, hd⟩ := isDigits_append.1 hright
    have hcDigit := isDigit_iff.1 (hc c (by simp))
    have hdDigit := isDigit_iff.1 (hd d (by simp))
    -- The last digit is the remainder by ten, the others write the quotient.
    rw [decimalValue_concat, decimalValue_concat] at hvalue
    have hchar : c = d := Char.toNat_inj.1 (by omega)
    have hinit : left = right := ih hleft hright (by simpa using hlength) (by omega)
    rw [hinit, hchar]

/-- Two lists that are one list after zeros are filled in at the end are the same if
neither ends with a zero. -/
theorem eq_of_append_zeros {a b : Nat}
    (h : left ++ List.replicate a '0' = right ++ List.replicate b '0')
    (hleft : left.getLast? ≠ some '0') (hright : right.getLast? ≠ some '0') : left = right := by
  have hstripped : ∀ {digits : List Char} (count : Nat), digits.getLast? ≠ some '0' →
      (digits ++ List.replicate count '0').rdropWhile (· = '0') = digits := by
    intro digits count hlast
    induction count with
    | zero =>
      rw [List.replicate_zero, List.append_nil, List.rdropWhile_eq_self_iff]
      intro hne hzero
      rw [List.getLast?_eq_getLast_of_ne_nil hne, of_decide_eq_true hzero] at hlast
      exact hlast rfl
    | succ count ih =>
      rw [List.replicate_succ', ← List.append_assoc, List.rdropWhile_concat_pos _ _ _ (by simp)]
      exact ih
  rw [← hstripped a hleft, h, hstripped b hright]

/-- Two lists that are one list after zeros are filled in at the front are the same if
neither is empty and neither has a zero before other digits. -/
theorem eq_of_zeros_append {a b : Nat}
    (h : List.replicate a '0' ++ left = List.replicate b '0' ++ right)
    (hleft : left ≠ []) (hright : right ≠ [])
    (hleftHead : left.head? = some '0' → left = ['0'])
    (hrightHead : right.head? = some '0' → right = ['0']) : left = right := by
  wlog hab : a ≤ b generalizing a b left right
  · exact (this h.symm hright hleft hrightHead hleftHead (by omega)).symm
  obtain ⟨extra, rfl⟩ := Nat.exists_eq_add_of_le hab
  rw [← List.replicate_append_replicate, List.append_assoc, List.append_cancel_left_eq] at h
  cases extra with
  | zero => exact h
  | succ extra =>
    -- A zero too many would make the left one a single zero, and the right one empty.
    have hzero : left = ['0'] := hleftHead (by rw [h]; rfl)
    have hlength := congrArg List.length h
    have hpositive : 0 < right.length := List.length_pos_of_ne_nil hright
    simp only [hzero, List.length_singleton, List.length_append, List.length_replicate] at hlength
    omega

/-! ## Counters -/

theorem value?_ten_eq_some_iff {n : Nat} :
    value? 10 digits = some n ↔ IsDigits digits ∧ n = decimalValue digits := by
  induction digits using List.reverseRecOn generalizing n with
  | nil =>
    have hnone : IsDigits [] := by simp [IsDigits]
    simp only [value?, List.foldlM_nil, pure, Option.some.injEq, hnone, true_and, decimalValue_nil]
    exact eq_comm
  | append_singleton digits c ih =>
    have hlast : IsDigits [c] ↔ c.isDigit = true := by simp [IsDigits]
    rw [value?_append_singleton, isDigits_append, hlast, decimalValue_concat]
    simp only [Option.bind_eq_some_iff, Option.map_eq_some_iff, ih, digit?_ten_eq_some_iff]
    constructor
    · rintro ⟨before, ⟨hdigits, rfl⟩, digit, ⟨hc, rfl⟩, rfl⟩
      exact ⟨⟨hdigits, hc⟩, rfl⟩
    · rintro ⟨⟨hdigits, hc⟩, rfl⟩
      exact ⟨_, ⟨hdigits, rfl⟩, _, ⟨hc, rfl⟩, rfl⟩

/-- The text is the number in decimal digits, with or without a plus sign in front. -/
def Numbers (text : String) (n : Nat) : Prop :=
  ∃ digits, (text.toList = digits ∨ text.toList = '+' :: digits) ∧ digits ≠ [] ∧
    IsDigits digits ∧ decimalValue digits = n

theorem not_isDigits_plus (digits : List Char) : ¬IsDigits ('+' :: digits) :=
  fun h => Bool.false_ne_true (h '+' List.mem_cons_self)

theorem numbers_iff_of_plus {text : String} {n : Nat} (h : text.toList = '+' :: digits) :
    Numbers text n ↔ digits ≠ [] ∧ IsDigits digits ∧ decimalValue digits = n := by
  constructor
  · rintro ⟨digits', hform | hform, hdigits⟩
    · obtain rfl : '+' :: digits = digits' := h.symm.trans hform
      exact absurd hdigits.2.1 (not_isDigits_plus digits)
    · obtain ⟨-, rfl⟩ := List.cons.inj (h.symm.trans hform)
      exact hdigits
  · exact fun hdigits => ⟨digits, Or.inr h, hdigits⟩

theorem numbers_iff_of_no_plus {text : String} {n : Nat}
    (h : ∀ digits, text.toList ≠ '+' :: digits) :
    Numbers text n ↔
      text.toList ≠ [] ∧ IsDigits text.toList ∧ decimalValue text.toList = n := by
  constructor
  · rintro ⟨digits, rfl | hform, hdigits⟩
    · exact hdigits
    · exact absurd hform (h digits)
  · exact fun hdigits => ⟨text.toList, Or.inl rfl, hdigits⟩

/-- A counter is read from a text that is a number below the bound, and from no other. -/
theorem counter?_eq_some_iff {bound n : Nat} {text : String} :
    counter? bound text = some n ↔ Numbers text n ∧ n < bound := by
  have hread : ∀ digits : List Char,
      (if digits.isEmpty then none else (value? 10 digits).filter (· < bound)) = some n ↔
        (digits ≠ [] ∧ IsDigits digits ∧ decimalValue digits = n) ∧ n < bound := by
    intro digits
    cases digits with
    | nil => simp
    | cons c digits =>
      rw [if_neg (by simp), Option.filter_eq_some_iff, value?_ten_eq_some_iff, decide_eq_true_eq]
      simp [eq_comm (a := n)]
  rw [counter?]
  split
  · rename_i digits hplus
    rw [numbers_iff_of_plus hplus]
    exact hread digits
  · rename_i hno
    rw [numbers_iff_of_no_plus hno]
    exact hread text.toList

theorem Numbers.unique {text : String} {left right : Nat} (hleft : Numbers text left)
    (hright : Numbers text right) : left = right := by
  have hread := counter?_eq_some_iff.2 ⟨hleft, Nat.lt_succ_of_le (Nat.le_max_left left right)⟩
  rw [counter?_eq_some_iff.2 ⟨hright, Nat.lt_succ_of_le (Nat.le_max_right left right)⟩] at hread
  exact (Option.some.inj hread).symm

end DonationFlow.Text
