import DonationFlow.Word

/-!
# Positions

A donor's stake and endowment in a campaign, as the chain reports them.
-/

namespace DonationFlow

structure StakingPosition where
  principal : Word := Word.zero
  earned : Word := Word.zero
  claimable : Word := Word.zero
  /-- Share of the yield for the cause, in basis points. -/
  causeShare : UInt16 := 0
  /-- Share of the yield for the donor, in basis points. -/
  donorShare : UInt16 := 0
  deriving DecidableEq, Repr

structure EndowmentPosition where
  principal : Word := Word.zero
  lifetimeYield : Word := Word.zero
  pendingYield : Word := Word.zero
  causeShare : UInt16 := 0
  donorShare : UInt16 := 0
  deriving DecidableEq, Repr

/-- A position without principal is shown as no position. -/
def StakingPosition.isHeld (position : StakingPosition) : Bool := !position.principal.isZero

def EndowmentPosition.isHeld (position : EndowmentPosition) : Bool := !position.principal.isZero

end DonationFlow
