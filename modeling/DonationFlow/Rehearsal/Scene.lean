import DonationFlow.ClockedFlow
import DonationFlow.Pause
import DonationFlow.Rehearsal.Report

/-!
# The scene of a rehearsal

The flow with everything around it: wallet, scripted world, read cache, and
whatever sleeps until the clock wakes it.
-/

namespace DonationFlow.Rehearsal

/-- Who is told when a call of the flow ends. -/
inductive Origin where
  | submission (step : Nat)
  /-- A submission asked for by a request to the service. -/
  | request (step : Nat)
  | resumption (step : Nat)
  /-- A call made in the window of the step's submission. -/
  | window (step : Nat)
  | watcher (index : Nat)
  deriving DecidableEq, Repr

namespace Origin

/-- The step that the call belongs to; those of a watcher are the watcher's. -/
def step? : Origin → Option Nat
  | submission step | request step | resumption step | window step => some step
  | watcher _ => none

end Origin

inductive WatcherPhase where
  /-- Its resumption is under way. -/
  | ticking (call : Nat)
  | sleeping
  | ended
  deriving DecidableEq, Repr

/-- The background watcher: it renews the reads and resumes what was left. -/
structure Watcher where
  step : Nat
  interval : Nat
  phase : WatcherPhase := .sleeping
  cancelled : Bool := false
  deriving DecidableEq, Repr

/-- A wait for card funding that a step started. -/
structure Funding where
  step : Nat
  watch : Watch
  deriving DecidableEq, Repr

/-- What an alarm wakes. -/
inductive Sleeper where
  | watcher (index : Nat)
  | funding (index : Nat)
  | card (ofService : Bool) (index : Nat)
  | refresh (ofFlow : Bool) (index : Nat)
  deriving DecidableEq, Repr

structure Alarm where
  due : Nat
  sleeper : Sleeper
  deriving DecidableEq, Repr

/-- Everything that a rehearsal keeps between two steps. -/
structure Scene where
  settings : Settings
  /-- The interval of the funding watches that the service starts. -/
  servicePoll : Nat := 2000
  account : Option Address
  ledger : Ledger := {}
  executor : Executor := {}
  /-- The flow with the refreshes after its successes, and the time. -/
  clocked : ClockedFlow := {}
  cache : ReadCache := {}
  /-- What sleeps, in the order it lay down. -/
  alarms : List Alarm := []
  origins : Table Nat Origin := {}
  windows : Table Nat Window := {}
  /-- The calls whose window has been looked into. -/
  seen : List Nat := []
  watchers : List Watcher := []
  fundings : List Funding := []
  /-- The funding session of the steps. -/
  card : OnrampSession := {}
  /-- The funding session of the service. -/
  serviceCard : OnrampSession := {}
  /-- The refreshes that steps ask for. -/
  ownRefresher : Refresher := {}
  /-- The index of the step under way. -/
  step : Nat := 0
  report : StepReport := {}

namespace Scene

def flow (scene : Scene) : Flow := scene.clocked.flow

def now (scene : Scene) : Nat := scene.clocked.now

/-- A turn of the flow, and what is to be carried out for it. -/
def turn (scene : Scene) (move : Move) : Scene × List Effect :=
  let settings :=
    { scene.settings with settleDelay := Pause.lasting scene.settings.settleDelay }
  let (clocked, effects) := scene.clocked.turn settings move
  ({ scene with clocked }, effects)

/-- An edit of the intent, with what it answers. -/
def turnEdit (scene : Scene) (edit : Edit) : Scene × Except FlowError Intent × List Effect :=
  let (_, outcome, _) := scene.flow.edit scene.account edit
  let (scene, effects) := scene.turn (.edit scene.account edit)
  (scene, outcome, effects)

end Scene

end DonationFlow.Rehearsal
