/-!
# Letter case

Symbols are compared and stored without regard to the case of ASCII letters;
every other character stands for itself.
-/

namespace DonationFlow.Text

/-- The text with its ASCII letters in upper case. -/
def upper (text : String) : String := String.ofList (text.toList.map Char.toUpper)

/-- Equality up to the case of ASCII letters. -/
def sameLetters (left right : String) : Bool := upper left == upper right

theorem sameLetters_iff {left right : String} :
    sameLetters left right = true ↔ upper left = upper right := by
  simp [sameLetters]

@[simp] theorem sameLetters_self (text : String) : sameLetters text text = true :=
  sameLetters_iff.2 rfl

end DonationFlow.Text
