import DonationFlow.Refresh
import DonationFlow.Settings
import DonationFlow.Status

/-!
# The desk

The state that all submissions and edits share.  Every function of this folder
is one uninterrupted step on it; between two of them anything may happen.  The
epoch tells the current intent's calls from those of intents gone by.
-/

namespace DonationFlow

/-- An execution that was accepted and is not mined yet. -/
structure InFlight where
  hash : TxHash
  bridged : Bool
  /-- The amount as typed when the call was made. -/
  text : String
  target : RefreshTarget
  deriving DecidableEq, Repr

structure Desk where
  intent : Intent := Intent.default
  status : Status := .idle
  bridge : BridgeStatus := .idle
  /-- Advanced by every reset and every accepted submission. -/
  epoch : Nat := 0
  inFlight : Option InFlight := none
  /-- Confirmed hashes, and whether their success was applied. -/
  processed : Table TxHash Bool := {}
  lastError : Option FlowError := none
  /-- Every event so far, in order. -/
  log : List Event := []

namespace Desk

def emit (desk : Desk) (event : Event) : Desk := { desk with log := desk.log ++ [event] }

/-- Sets the status; only a change is told. -/
def enter (desk : Desk) (status : Status) : Desk :=
  if desk.status = status then desk else { desk with status }.emit (.status status)

/-- Sets the bridge status; only a change is told. -/
def setBridge (desk : Desk) (bridge : BridgeStatus) : Desk :=
  if desk.bridge = bridge then desk else { desk with bridge }.emit (.bridge bridge)

def setBridgeIf (desk : Desk) (condition : Bool) (bridge : BridgeStatus) : Desk :=
  if condition then desk.setBridge bridge else desk

def notify (desk : Desk) (notice : Notice) : Desk := desk.emit (.notice notice)

/-- Whether the amount exceeds what the spender may draw, as far as is known.
Without an account nothing may be drawn. -/
def needsApprovalFor (contracts : Contracts) (cache : ReadCache) (account : Option Address)
    (intent : Intent) : Bool :=
  if intent.token.isNative || intent.units.isZero then false
  else match contracts.spender? intent.chain with
    | none => false
    | some spender =>
      let allowed := match account with
        | some owner => cache.allowance intent.chain.id intent.token owner spender
        | none => Word.zero
      decide (allowed < intent.units)

def needsApproval (desk : Desk) (settings : Settings) (cache : ReadCache)
    (account : Option Address) : Bool :=
  needsApprovalFor settings.contracts cache account desk.intent

/-- The reads that an owner's view of the intent rests on, in order. -/
def readsFor (contracts : Contracts) (owner : Address) (intent : Intent) : List Read :=
  let allowance := match contracts.spender? intent.chain with
    | some spender => [Read.allowance intent.chain.id intent.token owner spender]
    | none => []
  (.balance intent.chain.id intent.token owner :: allowance).filter Read.reachesChain

end Desk

end DonationFlow
