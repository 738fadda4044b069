/-!
# Numerals

Positional numerals in a radix of at most 16, most significant digit first.
Main statement: `value?_numeral`, a written number reads back.
-/

namespace DonationFlow.Text

/-- The value of a digit in either letter case, if it is one in this radix. -/
def digit? (radix : Nat) (c : Char) : Option Nat :=
  let code := c.toNat
  let value :=
    if 48 ≤ code && code ≤ 57 then code - 48
    else if 97 ≤ code && code ≤ 122 then code - 87
    else if 65 ≤ code && code ≤ 90 then code - 55
    else radix
  if value < radix then some value else none

/-- The number written by a list of digits; the empty list writes zero. -/
def value? (radix : Nat) (digits : List Char) : Option Nat :=
  digits.foldlM (fun value c => (digit? radix c).map (radix * value + ·)) 0

/-- The digits of `n` without leading zero, in lower case. -/
def numeral (radix n : Nat) : List Char :=
  if _ : 2 ≤ radix ∧ radix ≤ n then numeral radix (n / radix) ++ [Nat.digitChar (n % radix)]
  else [Nat.digitChar n]
  termination_by n
  decreasing_by exact Nat.div_lt_self (by omega) (by omega)

/-- The decimal digits of `n`. -/
def decimal (n : Nat) : String := String.ofList (numeral 10 n)

theorem digit?_digitChar {radix n : Nat} (hn : n < radix) (hradix : radix ≤ 16) :
    digit? radix (Nat.digitChar n) = some n := by
  have h16 : n < 16 := by omega
  have : n = 0 ∨ n = 1 ∨ n = 2 ∨ n = 3 ∨ n = 4 ∨ n = 5 ∨ n = 6 ∨ n = 7 ∨ n = 8 ∨ n = 9 ∨
      n = 10 ∨ n = 11 ∨ n = 12 ∨ n = 13 ∨ n = 14 ∨ n = 15 := by omega
  rcases this with rfl | rfl | rfl | rfl | rfl | rfl | rfl | rfl | rfl | rfl | rfl | rfl | rfl |
    rfl | rfl | rfl <;> simp [digit?, Nat.digitChar, hn]

theorem value?_append_singleton (radix : Nat) (digits : List Char) (c : Char) :
    value? radix (digits ++ [c]) =
      (value? radix digits).bind fun value => (digit? radix c).map (radix * value + ·) := by
  simp [value?, List.foldlM_append]

theorem numeral_ne_nil (radix n : Nat) : numeral radix n ≠ [] := by
  unfold numeral
  split <;> simp

theorem value?_numeral {radix : Nat} (hlow : 2 ≤ radix) (hhigh : radix ≤ 16) (n : Nat) :
    value? radix (numeral radix n) = some n := by
  induction n using Nat.strongRecOn with
  | _ n ih =>
    unfold numeral
    split
    · rename_i h
      rw [value?_append_singleton, ih (n / radix) (Nat.div_lt_self (by omega) (by omega)),
        digit?_digitChar (Nat.mod_lt _ (by omega)) hhigh]
      simp [Nat.div_add_mod]
    · rename_i h
      rw [value?, List.foldlM_cons, digit?_digitChar (by omega) hhigh]
      simp

end DonationFlow.Text
