import DonationFlow.Desk.Submit

/-!
# Settling

The outcome of an execution is applied once, to the execution it belongs to.
A confirmed hash is remembered, with whether its success was applied; reports
for it that come later change nothing.
-/

namespace DonationFlow

namespace Notice

/-- The word for how long a relay takes. -/
def minutes (seconds : Nat) : String := Text.decimal ((seconds + 59) / 60)

/-- What a donor reads when the execution is mined. -/
def confirmation (flight : InFlight) : String :=
  let target := flight.target
  let what := s!"{target.action.noun} of {flight.text} {target.token.symbol}"
  if flight.bridged then
    let (name, wait) := match Chain.find? target.chainId with
      | some chain => (chain.name, minutes chain.bridgeSeconds)
      | none => ("the source chain", "1")
    s!"{what} sent from {name}; it reaches {Chain.settlement.name} in about {wait} min"
  else s!"{what} confirmed"

/-- What a donor reads when the submission fails. -/
def failure : FlowError → String
  | .userRejected => "Transaction rejected in wallet"
  | error => s!"Transaction failed: {error.message}"

end Notice

/-- What an outcome turned out to be. -/
inductive Settled where
  | confirmed (target : RefreshTarget)
  | alreadyConfirmed
  | failed (error : FlowError)
  | ignored
  deriving DecidableEq, Repr

namespace Desk

/-- A call of the attempt failed; nothing if the intent has moved on. -/
def fail (desk : Desk) (attempt : Attempt) (error : FlowError) (bridged : Bool) : Option Desk :=
  if desk.epoch = attempt.epoch then
    let failed := { desk with lastError := some error }.enter .error
    some ((failed.setBridgeIf bridged .failed).notify (.failed (Notice.failure error) none))
  else none

/-- What an attempt leaves to be refreshed. -/
def refreshTarget (settings : Settings) (attempt : Attempt) : RefreshTarget where
  chainId := attempt.intent.chain.id
  token := attempt.intent.token
  owner := attempt.account
  spender := settings.contracts.spender? attempt.intent.chain
  action := attempt.intent.action
  campaign := settings.campaign

/-- The execution of the attempt was accepted as `hash`. -/
def recordFlight (desk : Desk) (settings : Settings) (attempt : Attempt) (hash : TxHash) : Desk :=
  if desk.epoch = attempt.epoch then
    { desk with
      inFlight := some
        { hash
          bridged := attempt.plan.bridged
          text := attempt.intent.text
          target := refreshTarget settings attempt } }
  else desk

/-- Applies a confirmed execution. -/
def applySuccess (desk : Desk) (flight : InFlight) (hash : TxHash) : Desk :=
  let cleared :=
    { desk with
      inFlight := none
      processed := desk.processed.put hash true
      intent := desk.intent.clearAmount }
  ((cleared.enter .success).setBridgeIf flight.bridged .complete).notify
    (.confirmed (Notice.confirmation flight) hash)

/-- Applies a failed execution. -/
def applyFailure (desk : Desk) (flight : InFlight) (hash : TxHash) (error : FlowError) : Desk :=
  let failed := { desk with inFlight := none, lastError := some error }
  ((failed.enter .error).setBridgeIf flight.bridged .failed).notify
    (.failed (Notice.failure error) (some hash))

/-- Applies what became of `hash`: the receipt's word on whether it is
confirmed, or why there is no receipt. -/
def settle (desk : Desk) (hash : TxHash) (outcome : Except FlowError Bool) : Desk × Settled :=
  match desk.processed.get? hash with
  | some true => (desk, .alreadyConfirmed)
  | some false => (desk, .ignored)
  | none =>
    match desk.inFlight.filter (·.hash = hash), outcome with
    | some flight, .ok true => (desk.applySuccess flight hash, .confirmed flight.target)
    | some flight, .ok false =>
      let error := FlowError.notMined hash.text
      (desk.applyFailure flight hash error, .failed error)
    | some flight, .error error => (desk.applyFailure flight hash error, .failed error)
    | none, .ok true => ({ desk with processed := desk.processed.put hash false }, .ignored)
    | none, _ => (desk, .ignored)

end Desk

end DonationFlow
