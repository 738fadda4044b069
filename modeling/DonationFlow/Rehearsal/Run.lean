import DonationFlow.Rehearsal.Clock

/-!
# Running a rehearsal

One step of the script after the other, with a report of each.
-/

namespace DonationFlow.Rehearsal

namespace Scene

def answered (scene : Scene) (result : Result) : Scene :=
  { scene with report := { scene.report with result := some result } }

def edit (scene : Scene) (edit : Edit) : Scene :=
  let (scene, outcome, effects) := scene.turnEdit edit
  (scene.settled effects).answered (.edited outcome)

def view (scene : Scene) : View :=
  scene.flow.desk.view scene.settings scene.cache scene.account

/-- Drops whatever the step of this index started and has not ended, the call
in its window included. -/
def abandon (scene : Scene) (step : Nat) : Scene :=
  let ended := { scene with
    watchers := scene.watchers.map fun watcher =>
      if watcher.step = step then { watcher with phase := .ended } else watcher
    fundings := scene.fundings.map fun funding =>
      if funding.step = step then { funding with watch := funding.watch.cancel } else funding }
  let ticking := scene.watchers.filterMap fun watcher =>
    match watcher.phase with
    | .ticking call => if watcher.step = step then some call else none
    | _ => none
  let own := scene.flow.calls.filterMap fun call =>
    match (scene.origins.get? call.id).bind Origin.step? with
    | some origin => if origin = step then some call.id else none
    | none => none
  (ticking ++ own).foldl dropCall ended

def releaseSubmit (scene : Scene) (n : Nat) (verdict : Verdict) : Scene :=
  match scene.executor.releaseSubmit n verdict with
  | (executor, none) => { scene with executor }
  | (executor, some (call, outcome)) =>
    let (scene, effects) := { scene with executor }.turn (.submitted call outcome)
    scene.settled effects

def releaseReceipt (scene : Scene) (hash : TxHash) (verdict : Verdict) : Scene :=
  let (executor, calls) := scene.executor.releaseReceipt hash verdict
  calls.foldl
    (fun scene call =>
      let (scene, effects) := scene.turn (.mined call verdict)
      scene.settled effects)
    { scene with executor }

def reportOn (scene : Scene) (hash : TxHash) (confirmed : Bool) : Scene :=
  let (_, changed, _) := scene.flow.report hash confirmed
  let (scene, effects) := scene.turn (.report hash confirmed)
  (scene.settled effects).answered (.flag changed)

def startWatcher (scene : Scene) (interval : Nat) : Scene :=
  let index := scene.watchers.length
  let watcher : Watcher := { step := scene.step, interval }
  { scene with watchers := scene.watchers ++ [watcher] }.poll index

/-- Tells the watcher last started to stop; one that resumes a call stops
after it. -/
def stopWatcher (scene : Scene) : Scene :=
  let index := scene.watchers.length - 1
  match scene.watchers[index]? with
  | none => scene
  | some watcher =>
    let cancelled := { scene with
      watchers := scene.watchers.modify index fun watcher => { watcher with cancelled := true } }
    if watcher.phase = .sleeping then cancelled.watcherTicked index else cancelled

def startCard (scene : Scene) (ofService : Bool) (interval : Nat) : Scene × Except FlowError Unit :=
  match (scene.sessionOf ofService).start scene.account (Pause.between interval) with
  | .error error => (scene, .error error)
  | .ok session =>
    ((scene.withSession ofService session).pollCard ofService (session.watches.length - 1), .ok ())

def cancelCard (scene : Scene) (ofService : Bool) : Scene × Bool :=
  let (session, running) := (scene.sessionOf ofService).cancel
  (scene.withSession ofService session, running)

def awaitFunding (scene : Scene) (owner : Address) (interval : Nat) : Scene :=
  let index := scene.fundings.length
  let funding : Funding := ⟨scene.step, { owner, interval := Pause.between interval }⟩
  { scene with fundings := scene.fundings ++ [funding] }.pollFunding index

/-- Cancels the wait for funding last started. -/
def cancelFunding (scene : Scene) : Scene :=
  let index := scene.fundings.length - 1
  match scene.fundings[index]? with
  | none => scene
  | some funding =>
    let watch := funding.watch.cancel
    let scene :=
      { scene with fundings := scene.fundings.modify index fun funding => { funding with watch } }
    match funding.watch.phase, watch.phase with
    | .sleeping _ _, .ended how => scene.finished funding.step .result (.funding how)
    | _, _ => scene

/-- What the cache answers to a read. -/
def cached (scene : Scene) : Read → Result
  | .balance chainId token owner => .word (.ok (scene.cache.balance chainId token owner))
  | .allowance chainId token owner spender =>
    .word (.ok (scene.cache.allowance chainId token owner spender))
  | .staking owner campaign => .staking (.ok (scene.cache.staking? owner campaign))
  | .endowment owner campaign => .endowment (.ok (scene.cache.endowment? owner campaign))

/-- What a read that came back answers. -/
def landedResult : Landing → Result
  | .balance _ _ _ outcome | .allowance _ _ _ _ outcome => .word outcome
  | .staking _ _ outcome => .staking (outcome.map some)
  | .endowment _ _ outcome => .endowment (outcome.map some)

def read (scene : Scene) (read : Read) (fresh : Bool) : Scene :=
  if fresh then
    let (scene, landing) := scene.fetch read
    scene.answered (landedResult landing)
  else scene.answered (scene.cached read)

def cancelRefreshes (scene : Scene) (ofFlow : Bool) : Scene :=
  if ofFlow then { scene with clocked := scene.clocked.shutDown }
  else { scene with ownRefresher := scene.ownRefresher.cancel }

def serve (scene : Scene) : Request → Scene
  | .health => scene.answered (.response Api.health)
  | .chains => scene.answered (.response Api.chains)
  | .tokens chainId => scene.answered (.response (Api.tokens chainId))
  | .state => scene.answered (.response (Api.state scene.view))
  | .edit body =>
    match Api.editOf body with
    | .error status => scene.answered (.rejected status)
    | .ok edit =>
      let (scene, outcome, effects) := scene.turnEdit edit
      let scene := scene.settled effects
      match outcome with
      | .ok _ => scene.answered (.response (Api.state scene.view))
      | .error error => scene.answered (.response (Api.failure error))
  | .submit window =>
    let (scene, effects) := scene.submit (.request scene.step) window
    scene.settled effects
  | .watch =>
    let (scene, outcome) := scene.startCard true scene.servicePoll
    scene.answered (.response (Api.watchStarted outcome))
  | .cancel => (scene.cancelCard true).1.answered (.response Api.watchCancelled)

def setLedger (scene : Scene) (change : Ledger → Ledger) : Scene :=
  { scene with ledger := change scene.ledger }

def setExecutor (scene : Scene) (change : Executor → Executor) : Scene :=
  { scene with executor := change scene.executor }

def act (scene : Scene) : Step → Scene
  | .edit edit => scene.edit edit
  | .useSettlementCurrency =>
    let (scene, outcome) := scene.useFunds
    scene.answered (.edited outcome)
  | .intent => scene.answered (.edited (.ok scene.flow.desk.intent))
  | .view => scene.answered (.viewed scene.view)
  | .renewReads => scene.renewReads
  | .submit window =>
    let (scene, effects) := scene.submit (.submission scene.step) window
    scene.settled effects
  | .tick =>
    let (scene, effects) := scene.tick (.resumption scene.step)
    scene.settled effects
  | .report hash confirmed => scene.reportOn hash confirmed
  | .abandon step => scene.abandon step
  | .account account => { scene with account }
  | .setBalance chainId symbol value =>
    scene.setLedger fun ledger =>
      { ledger with balances := ledger.balances.put (chainId, symbol) value }
  | .setAllowance chainId symbol spender value =>
    scene.setLedger fun ledger =>
      { ledger with allowances := ledger.allowances.put (chainId, symbol, spender) value }
  | .setStaking position => scene.setLedger fun ledger => { ledger with staking := position }
  | .setEndowment position => scene.setLedger fun ledger => { ledger with endowment := position }
  | .failReads kinds => scene.setLedger fun ledger => { ledger with down := kinds }
  | .scriptSubmits verdicts =>
    scene.setExecutor fun executor =>
      { executor with submitScript := executor.submitScript ++ verdicts }
  | .scriptReceipts verdicts =>
    scene.setExecutor fun executor =>
      { executor with receiptScript := executor.receiptScript ++ verdicts }
  | .holdSubmits on => scene.setExecutor fun executor => { executor with holdSubmits := on }
  | .holdReceipts on => scene.setExecutor fun executor => { executor with holdReceipts := on }
  | .releaseSubmit n verdict => scene.releaseSubmit n verdict
  | .releaseReceipt hash verdict => scene.releaseReceipt hash verdict
  | .advance milliseconds => scene.moveClock scene.now (scene.now + Pause.lasting milliseconds)
  | .shutDown => scene.cancelRefreshes true
  | .startWatcher interval => scene.startWatcher interval
  | .stopWatcher => scene.stopWatcher
  | .startOnramp interval =>
    let (scene, outcome) := scene.startCard false interval
    scene.answered (.started outcome)
  | .cancelOnramp =>
    let (scene, running) := scene.cancelCard false
    scene.answered (.flag running)
  | .awaitFunding owner interval => scene.awaitFunding owner interval
  | .cancelFunding => scene.cancelFunding
  | .read read fresh => scene.read read fresh
  | .refresh target delay => scene.startRefresh target delay
  | .cancelRefreshes => scene.cancelRefreshes false
  | .request request => scene.serve request
  | .refused error => scene.answered (.started (.error error))

/-- One step and the report of it. -/
def perform (scene : Scene) (step : Step) : Scene × StepReport :=
  let before := scene.flow.desk.log.length
  let after := { scene with report := {} }.act step
  let desk := after.flow.desk
  let report :=
    { after.report with
      events := desk.log.drop before
      status := desk.status
      bridge := desk.bridge
      needsApproval := desk.needsApproval after.settings after.cache after.account }
  ({ after with step := after.step + 1 }, report)

/-- All steps of a script, and the scene they end with. -/
def performAll (scene : Scene) : List Step → Scene × List StepReport
  | [] => (scene, [])
  | step :: steps =>
    let (after, report) := scene.perform step
    let (last, reports) := after.performAll steps
    (last, report :: reports)

end Scene

end DonationFlow.Rehearsal
