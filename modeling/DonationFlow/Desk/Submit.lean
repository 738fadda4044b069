import DonationFlow.Desk.State

/-!
# Submitting the intent

A submission is planned at once.  If the plan needs an approval it is claimed
in two further steps: the approval is mined, then execution is taken up.  The
watcher may take up an approved submission instead, and whoever comes first
wins.
-/

namespace DonationFlow

/-- What an accepted submission set out to do, and when. -/
structure Attempt where
  epoch : Nat
  account : Address
  intent : Intent
  plan : Plan
  deriving DecidableEq, Repr

namespace Desk

/-- Execution is about to be handed out. -/
def beginExecution (desk : Desk) (plan : Plan) : Desk :=
  (desk.enter .pending).setBridgeIf plan.bridged .bridging

/-- The approval that the intent needs, if any. -/
def approvalFor (settings : Settings) (cache : ReadCache) (account : Address) (intent : Intent) :
    Option CallRequest :=
  if needsApprovalFor settings.contracts cache (some account) intent then
    (settings.contracts.spender? intent.chain).bind (Plan.approval? intent.token)
  else none

/-- Accepts the intent, or refuses it.  A refusal for want of a plan is a
failure of the attempt and shows in the status; any other changes nothing. -/
def submit (desk : Desk) (settings : Settings) (cache : ReadCache) (account : Option Address) :
    Desk × Except FlowError (Attempt × Option CallRequest) :=
  match account with
  | none => (desk, .error .notConnected)
  | some account =>
    if desk.status.isInProgress then (desk, .error .busy)
    else if desk.intent.units.isZero then (desk, .error .zeroAmount)
    else
      let taken := { desk with epoch := desk.epoch + 1, lastError := none }.setBridge .idle
      match Plan.ofIntent taken.intent settings.campaign settings.contracts with
      | .error error => ({ taken with lastError := some error }.enter .error, .error error)
      | .ok plan =>
        let attempt := ⟨taken.epoch, account, taken.intent, plan⟩
        match approvalFor settings cache account taken.intent with
        | some approval => (taken.enter .approving, .ok (attempt, some approval))
        | none => (taken.beginExecution plan, .ok (attempt, none))

/-- The approval was mined; nothing if the intent has moved on. -/
def approve (desk : Desk) (attempt : Attempt) : Option Desk :=
  if desk.epoch = attempt.epoch then some (desk.enter .approved) else none

/-- The submission takes up its own execution; nothing if the intent has moved
on or the watcher was first. -/
def claim (desk : Desk) (attempt : Attempt) : Option Desk :=
  if desk.epoch = attempt.epoch ∧ desk.status = .approved then
    some (desk.beginExecution attempt.plan)
  else none

/-- The watcher takes up an approved execution that nobody carried on. -/
def resume (desk : Desk) (settings : Settings) (cache : ReadCache) (account : Option Address) :
    Except FlowError (Option (Desk × Attempt)) :=
  match account with
  | none => .ok none
  | some account =>
    if desk.status ≠ .approved || desk.inFlight.isSome || desk.intent.units.isZero ||
        desk.needsApproval settings cache (some account) then .ok none
    else
      (Plan.ofIntent desk.intent settings.campaign settings.contracts).map fun plan =>
        some (desk.beginExecution plan, ⟨desk.epoch, account, desk.intent, plan⟩)

end Desk

end DonationFlow
