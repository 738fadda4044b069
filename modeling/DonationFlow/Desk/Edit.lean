import DonationFlow.Desk.State

/-!
# Editing the intent

A change of action, chain or token drops whatever was under way and starts
over with a blank amount.  A new amount alone only leaves a final status.
-/

namespace DonationFlow.Desk

/-- Starts over with another intent. -/
def reset (desk : Desk) (intent : Intent) : Desk :=
  let blank := { desk with intent, epoch := desk.epoch + 1, inFlight := none, lastError := none }
  (blank.enter .idle).setBridge .idle

/-- Enters an amount as typed. -/
def typeAmount (desk : Desk) (text : String) : Desk :=
  let typed := { desk with intent := desk.intent.withAmount text }
  if typed.status.isTerminal then { typed with lastError := none }.enter .idle else typed

/-- Whether another action, chain or token is asked for. -/
def differs (intent : Intent) (action : Action) (chain : Chain) (token : Token) : Bool :=
  action ≠ intent.action || chain.id ≠ intent.chain.id || token ≠ intent.token

/-- The desk after an edit, and whether the edit started over. -/
def edit (desk : Desk) (edit : Edit) : Except FlowError (Desk × Bool) := do
  let (action, chain, token) ← edit.target desk.intent
  let startsOver := differs desk.intent action chain token
  let chosen := if startsOver then desk.reset (Intent.blank action chain token) else desk
  let entered := match edit.amount with
    | some text => chosen.typeAmount text
    | none => chosen
  return (entered, startsOver)

end DonationFlow.Desk
