import DonationFlow.Flow
import DonationFlow.Rehearsal.World

/-!
# Steps of a rehearsal

What a script can make happen, one step at a time.
-/

namespace DonationFlow.Rehearsal

/-- A call made in the window between a submission's approval and its taking
up execution. -/
inductive Between where
  | edit (edit : Edit)
  | submit
  | tick
  deriving DecidableEq, Repr

/-- What happens in the window of a submission. -/
structure Window where
  between : Option Between := none
  /-- Whether the submission is abandoned there. -/
  abandon : Bool := false
  deriving DecidableEq, Repr

/-- A request to the service. -/
inductive Request where
  | health
  | chains
  | tokens (chainId : Nat)
  | state
  | edit (body : String)
  | submit (window : Window)
  | watch
  | cancel

inductive Step where
  | edit (edit : Edit)
  | useSettlementCurrency
  | intent
  | view
  | renewReads
  | submit (window : Window)
  | tick
  | report (hash : TxHash) (confirmed : Bool)
  /-- Drops the call that was started by the step of this index. -/
  | abandon (step : Nat)
  | account (account : Option Address)
  | setBalance (chainId : Nat) (symbol : String) (value : Word)
  | setAllowance (chainId : Nat) (symbol : String) (spender : Address) (value : Word)
  | setStaking (position : StakingPosition)
  | setEndowment (position : EndowmentPosition)
  | failReads (kinds : List ReadKind)
  | scriptSubmits (verdicts : List Verdict)
  | scriptReceipts (verdicts : List Verdict)
  | holdSubmits (on : Bool)
  | holdReceipts (on : Bool)
  | releaseSubmit (n : Nat) (verdict : Verdict)
  | releaseReceipt (hash : TxHash) (verdict : Verdict)
  | advance (milliseconds : Nat)
  | shutDown
  | startWatcher (interval : Nat)
  | stopWatcher
  | startOnramp (interval : Nat)
  | cancelOnramp
  | awaitFunding (owner : Address) (interval : Nat)
  | cancelFunding
  /-- Asks the cache, or renews the read first. -/
  | read (read : Read) (fresh : Bool)
  | refresh (target : RefreshTarget) (delay : Nat)
  | cancelRefreshes
  | request (request : Request)
  /-- A step that names something unknown. -/
  | refused (error : FlowError)

end DonationFlow.Rehearsal
