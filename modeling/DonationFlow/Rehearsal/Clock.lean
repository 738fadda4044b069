import DonationFlow.Rehearsal.Calls

/-!
# The virtual clock

Time moves only when a step says so.  Alarms that are due at the same time
ring in the order they were set, and the time that is moved to is included.
-/

namespace DonationFlow.Rehearsal.Scene

/-- The watcher wakes: it renews the reads and resumes what was left. -/
def poll (scene : Scene) (index : Nat) : Scene :=
  match scene.watchers[index]? with
  | none => scene
  | some watcher =>
    if watcher.phase = .sleeping then
      let renewed := scene.renewReads
      let ticking := { renewed with
        watchers := renewed.watchers.modify index fun watcher =>
          { watcher with phase := .ticking renewed.flow.next } }
      let (scene, effects) := ticking.tick (.watcher index)
      scene.settled effects
    else scene

/-- Reads the balance that a funding watch looks at. -/
def fetchFunds (scene : Scene) (owner : Address) : Scene × Except FlowError Word :=
  match Watch.currency? with
  | none => (scene, .error (.config .noSettlementCurrency))
  | some token =>
    match scene.fetch (.balance Chain.settlementId token owner) with
    | (scene, .balance _ _ _ outcome) => (scene, outcome)
    | (scene, _) => (scene, .error (.config .noSettlementCurrency))

/-- Lets a wait for funding read, and ends it or sets its alarm. -/
def pollFunding (scene : Scene) (index : Nat) : Scene :=
  match scene.fundings[index]? with
  | none => scene
  | some funding =>
    let woken := funding.watch.wake scene.now
    if woken.isReading then
      let (scene, outcome) := scene.fetchFunds woken.owner
      let watch := woken.landed scene.now outcome
      let scene :=
        { scene with
          fundings := scene.fundings.modify index fun funding => { funding with watch } }
      match watch.phase with
      | .sleeping _ due => scene.setAlarm due (.funding index)
      | .ended how => scene.finished funding.step .result (.funding how)
      | _ => scene
    else scene

def sessionOf (scene : Scene) (ofService : Bool) : OnrampSession :=
  if ofService then scene.serviceCard else scene.card

def withSession (scene : Scene) (ofService : Bool) (session : OnrampSession) : Scene :=
  if ofService then { scene with serviceCard := session } else { scene with card := session }

/-- Funds have arrived: the intent turns to the settlement currency, which is an edit and
leaves the refreshes alone. -/
def useFunds (scene : Scene) : Scene × Except FlowError Intent :=
  let (flow, outcome, effects) := scene.flow.useFunds scene.account
  ({ scene with clocked := { scene.clocked with flow } }.settled effects, outcome)

/-- Lets a watch of a funding session read, and acts on what it finds. -/
def pollCard (scene : Scene) (ofService : Bool) (index : Nat) : Scene :=
  let session := (scene.sessionOf ofService).modify index (Watch.wake · scene.now)
  match session.watches[index]? with
  | none => scene
  | some watch =>
    if watch.isReading then
      let (scene, outcome) := scene.fetchFunds watch.owner
      let (session, funded) := session.landed index scene.now outcome
      let scene := scene.withSession ofService session
      if funded then scene.useFunds.1
      else match (session.watches[index]?).bind Watch.due? with
        | some due => scene.setAlarm due (.card ofService index)
        | none => scene
    else scene

def wake (scene : Scene) : Sleeper → Scene
  | .watcher index => scene.poll index
  | .funding index => scene.pollFunding index
  | .card ofService index => scene.pollCard ofService index
  | .refresh ofFlow index => scene.refreshAgain ofFlow index

/-- The first time after `now`, up to `target`, at which an alarm rings. -/
def nextDue? (scene : Scene) (now target : Nat) : Option Nat :=
  ((scene.alarms.map (·.due)).filter fun due => now < due && due ≤ target).min?

def elapse (scene : Scene) (milliseconds : Nat) : Scene :=
  { scene with clocked := scene.clocked.elapse milliseconds }

/-- Rings every alarm that is due by `time`. -/
def ring (scene : Scene) (time : Nat) : Scene :=
  let due := scene.alarms.filter (·.due ≤ time)
  let later := scene.alarms.filter (time < ·.due)
  (due.map (·.sleeper)).foldl wake { scene.elapse (time - scene.now) with alarms := later }

/-- Moves the clock from `now` to `target`, ringing what is due on the way. -/
def moveClock (scene : Scene) (now target : Nat) : Scene :=
  match scene.nextDue? now target with
  | some due =>
    if now < due ∧ due ≤ target then (scene.ring due).moveClock due target
    else scene.elapse (target - scene.now)
  | none => scene.elapse (target - scene.now)
  termination_by target - now

end DonationFlow.Rehearsal.Scene
