import DonationFlow.Rehearsal.Scene

/-!
# Carrying calls on

Every effect of a step of the flow is carried out at once against the scripted
world, until each call has ended or waits for a release or for the clock.
-/

namespace DonationFlow.Rehearsal.Scene

def finished (scene : Scene) (step : Nat) (aspect : Aspect) (result : Result) : Scene :=
  { scene with
    report := { scene.report with finished := scene.report.finished ++ [⟨step, aspect, result⟩] } }

/-- Reads the chain now and keeps what came back. -/
def fetch (scene : Scene) (read : Read) : Scene × Landing :=
  let refreshed := scene.cache.refresh (scene.ledger.answer read)
  ({ scene with
      cache := refreshed.cache
      report := { scene.report with reads := refreshed.asked ++ scene.report.reads } },
    refreshed.landing)

def fetchAll (scene : Scene) (reads : List Read) : Scene :=
  reads.foldl (fun scene read => (scene.fetch read).1) scene

/-- Renews the reads of the current intent, if a wallet is connected. -/
def renewReads (scene : Scene) : Scene :=
  match scene.account with
  | some owner =>
    scene.fetchAll (Desk.readsFor scene.settings.contracts owner scene.flow.desk.intent)
  | none => scene

def setAlarm (scene : Scene) (due : Nat) (sleeper : Sleeper) : Scene :=
  { scene with alarms := scene.alarms ++ [⟨due, sleeper⟩] }

def refresherOf (scene : Scene) (ofFlow : Bool) : Refresher :=
  if ofFlow then scene.clocked.refresher else scene.ownRefresher

/-- The read under way in a refresh came back. -/
def landed (scene : Scene) (ofFlow : Bool) (index : Nat) (landing : Landing) : Scene :=
  if ofFlow then { scene with clocked := scene.clocked.landed index landing }
  else { scene with ownRefresher := scene.ownRefresher.landed index scene.now }

/-- Starts the second passes that are due. -/
def wakeRefreshes (scene : Scene) (ofFlow : Bool) : Scene :=
  if ofFlow then { scene with clocked := scene.clocked.elapse 0 }
  else { scene with ownRefresher := scene.ownRefresher.wake scene.now }

/-- Reads for a refresh until its pass is through. -/
def runPass (scene : Scene) (ofFlow : Bool) (index : Nat) : Scene :=
  match (scene.refresherOf ofFlow).jobs[index]? with
  | none => scene
  | some job =>
    job.target.reads.foldl
      (fun scene read =>
        let (scene, landing) := scene.fetch read
        scene.landed ofFlow index landing)
      scene

/-- The second pass of a refresh may be due. -/
def refreshAgain (scene : Scene) (ofFlow : Bool) (index : Nat) : Scene :=
  let woken := scene.wakeRefreshes ofFlow
  if ((woken.refresherOf ofFlow).current? index).isSome then woken.runPass ofFlow index
  else scene

/-- Runs both passes of a refresh, or the first and sets the alarm for the second. -/
def runPasses (scene : Scene) (ofFlow : Bool) (index : Nat) : Scene :=
  let scene := (scene.runPass ofFlow index).refreshAgain ofFlow index
  match (scene.refresherOf ofFlow).jobs[index]?.map RefreshJob.phase with
  | some (.waiting due) => scene.setAlarm due (.refresh ofFlow index)
  | _ => scene

/-- Starts a refresh that a step asks for. -/
def startRefresh (scene : Scene) (target : RefreshTarget) (delay : Nat) : Scene :=
  let ownRefresher := scene.ownRefresher.start target (Pause.lasting delay) none
  { scene with ownRefresher }.runPasses false scene.ownRefresher.jobs.length

/-- The watcher's resumption is through: it sleeps, or stops if told to. -/
def watcherTicked (scene : Scene) (index : Nat) : Scene :=
  match scene.watchers[index]? with
  | none => scene
  | some watcher =>
    let enter := fun phase =>
      { scene with
        watchers := scene.watchers.modify index fun watcher => { watcher with phase } }
    if watcher.cancelled then (enter .ended).finished watcher.step .result .stopped
    else (enter .sleeping).setAlarm (scene.now + Pause.between watcher.interval) (.watcher index)

/-- Tells whoever started the call that it has ended. -/
def tell (scene : Scene) (id : Nat) (answer : Answer) : Scene :=
  match scene.origins.get? id with
  | none => scene
  | some (.submission step) | some (.resumption step) =>
    scene.finished step .result (.answered answer)
  | some (.request step) => scene.finished step .result (.response (Api.submitted answer))
  | some (.window step) => scene.finished step .between (.answered answer)
  | some (.watcher index) => scene.watcherTicked index

/-- Nobody waits for the call any more. -/
def dismiss (scene : Scene) (id : Nat) : Scene :=
  { scene with origins := scene.origins.erase id, windows := scene.windows.erase id }

/-- Drops a call for good. -/
def dropCall (scene : Scene) (id : Nat) : Scene :=
  let (scene, _) := scene.turn (.abandon id)
  { scene with executor := scene.executor.forget id }.dismiss id

/-- Starts a submission on behalf of the origin. -/
def submit (scene : Scene) (origin : Origin) (window : Window) : Scene × List Effect :=
  let id := scene.flow.next
  let (scene, effects) := scene.turn (.submit scene.cache scene.account)
  ({ scene with
      origins := scene.origins.put id origin
      windows := scene.windows.put id window },
    effects)

/-- Starts a resumption on behalf of the origin. -/
def tick (scene : Scene) (origin : Origin) : Scene × List Effect :=
  let id := scene.flow.next
  let (scene, effects) := scene.turn (.tick scene.cache scene.account)
  ({ scene with origins := scene.origins.put id origin }, effects)

/-- Notes the status that a planned window is entered with, once. -/
def lookIn (scene : Scene) (id step : Nat) : Scene :=
  if id ∈ scene.seen then scene
  else
    { scene with seen := id :: scene.seen }.finished step .saw (.status scene.flow.desk.status)

/-- A submission is at its window: what was planned for it happens, then the
submission goes on, and last the reads land that the window led to. -/
def inWindow (scene : Scene) (id : Nat) : Scene × List Effect :=
  let window := (scene.windows.get? id).getD {}
  let step := ((scene.origins.get? id).bind Origin.step?).getD scene.step
  let left : Window := { window with between := none }
  let entered := { scene.lookIn id step with windows := scene.windows.put id left }
  match window.between with
  | some (.edit edit) =>
    let (edited, outcome, rereads) := entered.turnEdit edit
    (edited.finished step .between (.edited outcome), .ready id :: rereads)
  | some .submit =>
    let (scene, effects) := entered.submit (.window step) {}
    (scene, effects ++ [.ready id])
  | some .tick =>
    let (scene, effects) := entered.tick (.window step)
    (scene, effects ++ [.ready id])
  | none =>
    if window.abandon then
      (((scene.lookIn id step).dropCall id).finished step .result .abandoned, [])
    else scene.turn (.proceed id)

/-- Carries out one effect; it may lead to more. -/
def carryOut (scene : Scene) : Effect → Scene × List Effect
  | .handOut id chainId request =>
    let (executor, answer) := scene.executor.submit id
    let handed := scene.report.handed ++ [.submit executor.handedIn chainId request]
    let scene := { scene with executor, report := { scene.report with handed } }
    match answer with
    | none => (scene, [])
    | some outcome => scene.turn (.submitted id outcome)
  | .awaitReceipt id chainId hash =>
    let (executor, answer) := scene.executor.receipt hash id
    let handed := scene.report.handed ++ [.wait chainId hash]
    let scene := { scene with executor, report := { scene.report with handed } }
    match answer with
    | none => (scene, [])
    | some outcome => scene.turn (.mined id outcome)
  | .ready id => scene.inWindow id
  | .answer id answer => ((scene.tell id answer).dismiss id, [])
  | .reread owner intent =>
    (scene.fetchAll (Desk.readsFor scene.settings.contracts owner intent), [])
  | .rereadAllowance chainId token owner spender =>
    (scene.fetchAll ([Read.allowance chainId token owner spender].filter Read.reachesChain), [])
  -- The turn that this is an effect of has started the refresh, as the last one.
  | .refresh _ => (scene.runPasses true (scene.clocked.refresher.jobs.length - 1), [])

/-- Carries out effects, and those they lead to, while fuel lasts. -/
def carryOutAll : (fuel : Nat) → List Effect → Scene → Scene
  | _, [], scene => scene
  | 0, _, scene => scene
  | fuel + 1, effect :: effects, scene =>
    let (scene, more) := scene.carryOut effect
    carryOutAll fuel (more ++ effects) scene

/-- A call gives rise to at most eight effects of its own, and each window to
one more call. -/
def settled (scene : Scene) (effects : List Effect) : Scene :=
  carryOutAll (16 * (scene.flow.calls.length + effects.length + 2)) effects scene

end DonationFlow.Rehearsal.Scene
