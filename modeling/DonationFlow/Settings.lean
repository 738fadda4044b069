import DonationFlow.Fees
import DonationFlow.Plan

/-!
# Settings of a running flow
-/

namespace DonationFlow

structure Settings where
  campaign : Word
  contracts : Contracts
  rates : Rates := {}
  fees : FeeSchedule := {}
  /-- Milliseconds between the two refresh passes after a success. -/
  settleDelay : Nat := 4000
  deriving DecidableEq

end DonationFlow
