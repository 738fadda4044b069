import DonationFlow.Word

/-!
# The split of a wealth-build amount

A share is counted in basis points.  The principal takes what the cause and
the platform leave, rounding dust included.
-/

namespace DonationFlow

structure FeeSchedule where
  causeBps : UInt16 := 7800
  platformFeeBps : UInt16 := 200
  deriving DecidableEq, Repr

structure FeeSplit where
  cause : Word
  principal : Word
  platformFee : Word
  deriving DecidableEq, Repr

/-- Basis points of a whole. -/
def wholeBps : Nat := 10000

/-- The share of an amount, in two parts whose products stay small: the whole
ten-thousandths first, then the remainder. -/
def bpsShare (amount : Word) (bps : UInt16) : Word :=
  let bulk := Word.clamp (amount.toNat / wholeBps * bps.toNat)
  let rest := amount.toNat % wholeBps * bps.toNat / wholeBps
  Word.clamp (bulk.toNat + rest)

namespace FeeSchedule

def split (fees : FeeSchedule) (amount : Word) : FeeSplit :=
  let cause := bpsShare amount fees.causeBps
  let platformFee := bpsShare amount fees.platformFeeBps
  { cause, principal := (amount.monus cause).monus platformFee, platformFee }

/-- Whether the two shares fit into the whole. -/
def IsValid (fees : FeeSchedule) : Prop :=
  fees.causeBps.toNat + fees.platformFeeBps.toNat ≤ wholeBps

instance (fees : FeeSchedule) : Decidable fees.IsValid :=
  inferInstanceAs (Decidable (_ ≤ _))

end FeeSchedule

end DonationFlow
