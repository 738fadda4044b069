import DonationFlow.ReadCache

/-!
# Watching for card funding

A card purchase lands as settlement currency on the settlement chain.  A watch
takes the balance as its baseline and reads it again at intervals until it has
risen.  A session keeps at most one watch that nobody has cancelled.
-/

namespace DonationFlow

/-- How a watch ended. -/
inductive WatchEnd where
  | funded (increase : Word)
  | cancelled
  | failed (error : FlowError)
  deriving DecidableEq, Repr

inductive WatchPhase where
  /-- The first read is under way. -/
  | baseline
  | sleeping (baseline : Word) (due : Nat)
  /-- A later read is under way. -/
  | polling (baseline : Word)
  | ended (how : WatchEnd)
  deriving DecidableEq, Repr

structure Watch where
  owner : Address
  interval : Nat
  phase : WatchPhase := .baseline
  cancelled : Bool := false
  deriving DecidableEq, Repr

namespace Watch

/-- The watched balance: the settlement currency on the settlement chain. -/
def currency? : Option Token := Token.settlementCurrency? Chain.settlementId

/-- Goes to sleep until the next read, or ends if it was cancelled meanwhile. -/
def rest (watch : Watch) (baseline : Word) (now : Nat) : Watch :=
  if watch.cancelled then { watch with phase := .ended .cancelled }
  else { watch with phase := .sleeping baseline (now + watch.interval) }

/-- The read under way came back at time `now`. -/
def landed (watch : Watch) (now : Nat) (outcome : Except FlowError Word) : Watch :=
  match watch.phase, outcome with
  | .baseline, .ok balance => watch.rest balance now
  | .baseline, .error error => { watch with phase := .ended (.failed error) }
  | .polling baseline, .ok balance =>
    if baseline < balance then
      { watch with phase := .ended (.funded (balance.monus baseline)) }
    else watch.rest baseline now
  | .polling baseline, .error _ => watch.rest baseline now
  | _, _ => watch

/-- The clock shows `now`. -/
def wake (watch : Watch) (now : Nat) : Watch :=
  match watch.phase with
  | .sleeping baseline due =>
    if due ≤ now then { watch with phase := .polling baseline } else watch
  | _ => watch

/-- A sleeping watch ends at once; a read under way is let come back. -/
def cancel (watch : Watch) : Watch :=
  match watch.phase with
  | .sleeping _ _ => { watch with phase := .ended .cancelled, cancelled := true }
  | _ => { watch with cancelled := true }

def isReading (watch : Watch) : Bool :=
  match watch.phase with
  | .baseline | .polling _ => true
  | _ => false

def due? (watch : Watch) : Option Nat :=
  match watch.phase with
  | .sleeping _ due => some due
  | _ => none

def funded? (watch : Watch) : Option Word :=
  match watch.phase with
  | .ended (.funded increase) => some increase
  | _ => none

end Watch

/-- The watches of one session, in the order they were started. -/
structure OnrampSession where
  watches : List Watch := []
  /-- The watch to be cancelled next, if any. -/
  current : Option Nat := none
  deriving DecidableEq, Repr

namespace OnrampSession

def modify (session : OnrampSession) (index : Nat) (change : Watch → Watch) : OnrampSession :=
  { session with watches := session.watches.modify index change }

def cancelCurrent (session : OnrampSession) : OnrampSession :=
  match session.current with
  | some index => { session.modify index Watch.cancel with current := none }
  | none => session

/-- Starts a watch in place of an earlier one. -/
def start (session : OnrampSession) (account : Option Address) (interval : Nat) :
    Except FlowError OnrampSession :=
  match account with
  | none => .error .notConnected
  | some owner =>
    let replaced := session.cancelCurrent
    .ok
      { watches := replaced.watches ++ [{ owner, interval }]
        current := some replaced.watches.length }

/-- A read of a watch came back.  It tells whether funds have arrived. -/
def landed (session : OnrampSession) (index now : Nat) (outcome : Except FlowError Word) :
    OnrampSession × Bool :=
  match session.watches[index]? with
  | none => (session, false)
  | some watch =>
    let after := watch.landed now outcome
    (session.modify index fun _ => after, watch.isReading && after.funded?.isSome)

/-- Cancels the watch last started, and tells whether there was one to cancel. -/
def cancel (session : OnrampSession) : OnrampSession × Bool :=
  (session.cancelCurrent, session.current.isSome)

end OnrampSession

end DonationFlow
