import DonationFlow.Desk.State

/-!
# The view

Everything that a user interface shows.
-/

namespace DonationFlow

/-- A split written in the intent's token. -/
structure SplitTexts where
  cause : String
  principal : String
  platformFee : String
  deriving DecidableEq, Repr

structure View where
  intent : Intent
  status : Status
  bridge : BridgeStatus
  needsApproval : Bool
  connected : Bool
  balance : String
  settlementEstimate : String
  split : Option SplitTexts
  lastError : Option FlowError
  staking : Option StakingPosition
  endowment : Option EndowmentPosition
  deriving DecidableEq, Repr

namespace Desk

/-- The split is previewed only for a wealth-build deposit. -/
def splitTexts (settings : Settings) (intent : Intent) : Option SplitTexts :=
  if intent.action = .wealthBuild then
    let split := settings.fees.split intent.units
    let written := fun amount => Amount.format amount intent.token.decimals
    some ⟨written split.cause, written split.principal, written split.platformFee⟩
  else none

def view (desk : Desk) (settings : Settings) (cache : ReadCache) (account : Option Address) :
    View :=
  let intent := desk.intent
  let balance := match account with
    | some owner => cache.balance intent.chain.id intent.token owner
    | none => Word.zero
  { intent
    status := desk.status
    bridge := desk.bridge
    needsApproval := desk.needsApproval settings cache account
    connected := account.isSome
    balance := Amount.format balance intent.token.decimals
    settlementEstimate :=
      Amount.format (settings.rates.estimate intent.token intent.units) Amount.settlementDecimals
    split := splitTexts settings intent
    lastError := desk.lastError
    staking := account.bind fun owner => cache.staking? owner settings.campaign
    endowment := account.bind fun owner => cache.endowment? owner settings.campaign }

end Desk

end DonationFlow
