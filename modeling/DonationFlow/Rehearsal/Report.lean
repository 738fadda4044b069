import DonationFlow.Api
import DonationFlow.Onramp
import DonationFlow.Rehearsal.Script

/-!
# Reports of a rehearsal

What is seen of each step: its own answer, the calls that ended in it, the
events, what reached the executor and the chain, and where things stand.
-/

namespace DonationFlow.Rehearsal

/-- What a step or a call started by one answers. -/
inductive Result where
  | edited (outcome : Except FlowError Intent)
  | viewed (view : View)
  | flag (value : Bool)
  | started (outcome : Except FlowError Unit)
  | answered (answer : Answer)
  | funding (how : WatchEnd)
  | word (outcome : Except FlowError Word)
  | staking (outcome : Except FlowError (Option StakingPosition))
  | endowment (outcome : Except FlowError (Option EndowmentPosition))
  | response (response : Api.Response)
  /-- The service refuses the request's text. -/
  | rejected (status : Nat)
  | abandoned
  | stopped
  | status (status : Status)

/-- What is told of a call started earlier. -/
inductive Aspect where
  | between
  | result
  | saw
  deriving DecidableEq, Repr

structure Finished where
  step : Nat
  aspect : Aspect
  result : Result

/-- What reached the executor. -/
inductive Handed where
  | submit (n chainId : Nat) (request : CallRequest)
  | wait (chainId : Nat) (hash : TxHash)
  deriving DecidableEq, Repr

structure StepReport where
  result : Option Result := none
  finished : List Finished := []
  events : List Event := []
  handed : List Handed := []
  /-- What reached the chain, the latest first. -/
  reads : List Read := []
  status : Status := .idle
  bridge : BridgeStatus := .idle
  needsApproval : Bool := false

end DonationFlow.Rehearsal
