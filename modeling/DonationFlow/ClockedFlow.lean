import DonationFlow.Flow

/-!
# The flow on a clock

A flow runs together with the refreshes that it started and with the clock.  The call
that a success is applied for goes through the first pass before it answers, and the
pass goes with it if it is abandoned; the second pass belongs to nobody and starts on
time.
-/

namespace DonationFlow

/-- A flow with the refreshes after its successes and the clock. -/
structure ClockedFlow where
  flow : Flow := {}
  refresher : Refresher := {}
  now : Nat := 0
  /-- When the flow was shut down. -/
  closed : Option Nat := none

/-- One step of a flow with its refreshes and the clock. -/
inductive ClockedMove where
  | turn (move : Move)
  /-- The read under way in the refresh of that index came back. -/
  | landed (index : Nat) (landing : Landing)
  /-- So many milliseconds go by, if no second pass is due before. -/
  | elapse (milliseconds : Nat)
  | shutDown
  /-- Whoever reported the success behind the refresh of that index goes away. -/
  | hungUp (index : Nat)

namespace ClockedFlow

/-- A turn of the flow.  What it refreshes is read for the call that the turn is about. -/
def turn (settings : Settings) (clocked : ClockedFlow) (move : Move) : ClockedFlow × List Effect :=
  let (flow, effects) := clocked.flow.step settings move
  let refresher := match move with
    | .abandon id => clocked.refresher.abandon id
    | _ => clocked.refresher
  let targets := effects.filterMap Effect.refresh?
  let refresher := refresher.startAll targets settings.settleDelay move.caller?
  ({ clocked with flow, refresher }, effects)

/-- A read that is not under way does not come back. -/
def landed (clocked : ClockedFlow) (index : Nat) (landing : Landing) : ClockedFlow :=
  if clocked.refresher.current? index = some landing.read then
    { clocked with refresher := clocked.refresher.landed index clocked.now }
  else clocked

/-- What the clock shows after so many milliseconds.  It stops where a second pass is
due. -/
def later (clocked : ClockedFlow) (milliseconds : Nat) : Nat :=
  match clocked.refresher.due? with
  | some due => max clocked.now (min due (clocked.now + milliseconds))
  | none => clocked.now + milliseconds

def elapse (clocked : ClockedFlow) (milliseconds : Nat) : ClockedFlow :=
  { clocked with
    now := clocked.later milliseconds
    refresher := clocked.refresher.wake (clocked.later milliseconds) }

def shutDown (clocked : ClockedFlow) : ClockedFlow :=
  { clocked with
    closed := clocked.closed <|> some clocked.now
    refresher := clocked.refresher.cancel }

def hangUp (clocked : ClockedFlow) (index : Nat) : ClockedFlow :=
  { clocked with refresher := clocked.refresher.hangUp index }

def step (settings : Settings) (clocked : ClockedFlow) : ClockedMove → ClockedFlow
  | .turn move => (clocked.turn settings move).1
  | .landed index landing => clocked.landed index landing
  | .elapse milliseconds => clocked.elapse milliseconds
  | .shutDown => clocked.shutDown
  | .hungUp index => clocked.hangUp index

/-- What a run leads to. -/
def reached (settings : Settings) (clocked : ClockedFlow) (moves : List ClockedMove) :
    ClockedFlow :=
  moves.foldl (step settings) clocked

end ClockedFlow

end DonationFlow
