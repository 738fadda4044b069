import DonationFlow.Text.Letter
import Mathlib.Data.List.Forall2

/-!
# Letters in two cases

Texts that have one upper case agree letter by letter: each character stands for
itself, or for the other case of one ASCII letter.  Main statement:
`sameLetters_iff_sameUpToCase`.
-/

namespace DonationFlow.Text

/-- The two are an ASCII letter in upper and in lower case. -/
def IsCapitalOf (capital small : Char) : Prop :=
  65 ≤ capital.toNat ∧ capital.toNat ≤ 90 ∧ small.toNat = capital.toNat + 32

/-- Equal, up to the case of an ASCII letter. -/
def SameLetter (left right : Char) : Prop :=
  left = right ∨ IsCapitalOf left right ∨ IsCapitalOf right left

/-- Equal character by character, up to the case of ASCII letters. -/
def SameUpToCase (left right : String) : Prop :=
  List.Forall₂ SameLetter left.toList right.toList

theorem toNat_toUpper (c : Char) :
    c.toUpper.toNat = if 97 ≤ c.toNat ∧ c.toNat ≤ 122 then c.toNat - 32 else c.toNat := by
  have hsmall : ('a'.val ≤ c.val ∧ c.val ≤ 'z'.val) ↔ 97 ≤ c.toNat ∧ c.toNat ≤ 122 := by
    rw [UInt32.le_iff_toNat_le, UInt32.le_iff_toNat_le]
    rfl
  unfold Char.toUpper
  split
  · rename_i h
    rw [if_pos (hsmall.1 h)]
    obtain ⟨hlow, hhigh⟩ := hsmall.1 h
    show (c.val + ('A'.val - 'a'.val)).toNat = c.val.toNat - 32
    have hvalue : c.toNat = c.val.toNat := rfl
    rw [UInt32.toNat_add]
    have hshift : ('A'.val - 'a'.val).toNat = 2 ^ 32 - 32 := rfl
    omega
  · rename_i h
    rw [if_neg fun hletter => h (hsmall.2 hletter)]

theorem toUpper_eq_iff {left right : Char} :
    left.toUpper = right.toUpper ↔ SameLetter left right := by
  have heq : ∀ c d : Char, c = d ↔ c.toNat = d.toNat := fun c d =>
    ⟨congrArg Char.toNat, fun h => Char.ext (UInt32.toNat_inj.1 h)⟩
  rw [SameLetter, IsCapitalOf, IsCapitalOf, heq, heq left, toNat_toUpper, toNat_toUpper]
  split <;> split <;> omega

theorem map_eq_map_iff_forall₂ {left right : List Char} :
    left.map Char.toUpper = right.map Char.toUpper ↔ List.Forall₂ SameLetter left right := by
  rw [← List.forall₂_eq_eq_eq, List.forall₂_map_left_iff, List.forall₂_map_right_iff]
  simp only [toUpper_eq_iff]

/-- Symbols are compared up to the case of ASCII letters, and of no others. -/
theorem sameLetters_iff_sameUpToCase {left right : String} :
    sameLetters left right = true ↔ SameUpToCase left right := by
  rw [sameLetters_iff, upper, upper, String.ofList_inj, map_eq_map_iff_forall₂, SameUpToCase]

end DonationFlow.Text
