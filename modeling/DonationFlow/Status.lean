import DonationFlow.Error

/-!
# Statuses and events

Where a submission stands, where its relay stands, and what is told to whoever
listens.
-/

namespace DonationFlow

inductive Status where
  | idle
  | approving
  /-- The approval is mined; execution is about to be handed out. -/
  | approved
  | pending
  | success
  | error
  deriving DecidableEq, Repr

namespace Status

/-- The statuses in which a new submission is refused. -/
def isInProgress : Status → Bool
  | approving | approved | pending => true
  | _ => false

def isTerminal : Status → Bool
  | success | error => true
  | _ => false

def all : List Status := [idle, approving, approved, pending, success, error]

end Status

inductive BridgeStatus where
  | idle
  | bridging
  | confirming
  | swapping
  | complete
  | failed
  deriving DecidableEq, Repr

namespace BridgeStatus

/-- The progress line for the user. -/
def describe : BridgeStatus → String
  | idle => ""
  | bridging => "Bridging funds to the settlement chain…"
  | confirming => "Confirming on the settlement chain…"
  | swapping => "Converting to the settlement currency…"
  | complete => "Bridge complete"
  | failed => "Bridge failed"

def isInProgress : BridgeStatus → Bool
  | bridging | confirming | swapping => true
  | _ => false

def all : List BridgeStatus := [idle, bridging, confirming, swapping, complete, failed]

end BridgeStatus

/-- A message to the user about a settled submission. -/
inductive Notice where
  | confirmed (message : String) (hash : TxHash)
  | failed (message : String) (hash : Option TxHash)
  deriving DecidableEq, Repr

inductive Event where
  | status (status : Status)
  | bridge (status : BridgeStatus)
  | notice (notice : Notice)
  deriving DecidableEq, Repr

end DonationFlow
