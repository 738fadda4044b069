import DonationFlow.Desk.Edit
import DonationFlow.Desk.Settle

/-!
# The flow of calls

The desk together with the calls that are under way.  A call is a submission
or a resumption by the watcher; between two of its steps it waits for the
executor or for its turn, and any other step may come first.  A step tells what
it leads to outside as a list of effects, in order.
-/

namespace DonationFlow

/-- What a finished call answers. -/
inductive Answer where
  | confirmed (hash : TxHash)
  /-- The intent moved on, or the execution was taken up elsewhere. -/
  | superseded
  /-- There was nothing to resume. -/
  | nothing
  | failed (error : FlowError)
  deriving DecidableEq, Repr

/-- What a call waits for. -/
inductive Stage where
  /-- The executor, to accept the approval. -/
  | approving
  /-- The receipt of the approval. -/
  | approvalSent (hash : TxHash)
  /-- Its turn to take up execution. -/
  | approved
  /-- The executor, to accept the execution. -/
  | executing
  /-- The receipt of the execution. -/
  | sent (hash : TxHash)
  deriving DecidableEq, Repr

/-- A call under way. -/
structure OpenCall where
  id : Nat
  attempt : Attempt
  stage : Stage
  deriving DecidableEq, Repr

inductive Effect where
  /-- A call request is handed to the executor. -/
  | handOut (id chainId : Nat) (request : CallRequest)
  /-- The executor is asked for a receipt. -/
  | awaitReceipt (id chainId : Nat) (hash : TxHash)
  /-- The call may take up execution at its next turn. -/
  | ready (id : Nat)
  | answer (id : Nat) (answer : Answer)
  /-- The reads of the intent are to be renewed. -/
  | reread (owner : Address) (intent : Intent)
  /-- The allowance behind a mined approval is to be read again. -/
  | rereadAllowance (chainId : Nat) (token : Token) (owner spender : Address)
  /-- The target of a confirmed execution is to be refreshed. -/
  | refresh (target : RefreshTarget)
  deriving DecidableEq, Repr

/-- The target that an effect refreshes. -/
def Effect.refresh? : Effect → Option RefreshTarget
  | .refresh target => some target
  | _ => none

structure Flow where
  desk : Desk := {}
  /-- The calls under way, the oldest first. -/
  calls : List OpenCall := []
  /-- The id of the next call. -/
  next : Nat := 0

namespace Flow

def find? (flow : Flow) (id : Nat) : Option OpenCall := flow.calls.find? (·.id = id)

def drop (flow : Flow) (id : Nat) : Flow :=
  { flow with calls := flow.calls.filter (·.id ≠ id) }

/-- A call under way reaches its next stage. -/
def advance (flow : Flow) (id : Nat) (stage : Stage) : Flow :=
  { flow with
    calls := flow.calls.map fun call => if call.id = id then { call with stage } else call }

/-- The call ends. -/
def finish (flow : Flow) (id : Nat) (answer : Answer) : Flow × List Effect :=
  (flow.drop id, [.answer id answer])

/-- A new call under way. -/
def push (flow : Flow) (attempt : Attempt) (stage : Stage) : Flow :=
  { flow with
    calls := flow.calls ++ [⟨flow.next, attempt, stage⟩]
    next := flow.next + 1 }

/-- A new call that ends in the step that started it. -/
def refuse (flow : Flow) (answer : Answer) : Flow × List Effect :=
  ({ flow with next := flow.next + 1 }, [.answer flow.next answer])

/-- The execution of the attempt is handed out. -/
def handOutExecution (id : Nat) (attempt : Attempt) : Effect :=
  .handOut id attempt.intent.chain.id attempt.plan.request

def submit (flow : Flow) (settings : Settings) (cache : ReadCache) (account : Option Address) :
    Flow × List Effect :=
  match flow.desk.submit settings cache account with
  | (desk, .error error) => { flow with desk }.refuse (.failed error)
  | (desk, .ok (attempt, some approval)) =>
    ({ flow with desk }.push attempt .approving,
      [.handOut flow.next attempt.intent.chain.id approval])
  | (desk, .ok (attempt, none)) =>
    ({ flow with desk }.push attempt .executing, [handOutExecution flow.next attempt])

def tick (flow : Flow) (settings : Settings) (cache : ReadCache) (account : Option Address) :
    Flow × List Effect :=
  match flow.desk.resume settings cache account with
  | .error error => flow.refuse (.failed error)
  | .ok none => flow.refuse .nothing
  | .ok (some (desk, attempt)) =>
    ({ flow with desk }.push attempt .executing, [handOutExecution flow.next attempt])

/-- An edit is done in one step; the reads of a new intent are renewed after. -/
def edit (flow : Flow) (account : Option Address) (edit : Edit) :
    Flow × Except FlowError Intent × List Effect :=
  match flow.desk.edit edit with
  | .error error => (flow, .error error, [])
  | .ok (desk, startsOver) =>
    let rereads := match account with
      | some owner => if startsOver then [Effect.reread owner desk.intent] else []
      | none => []
    ({ flow with desk }, .ok desk.intent, rereads)

/-- Card funding has arrived: the intent turns to the settlement currency. -/
def useFunds (flow : Flow) (account : Option Address) :
    Flow × Except FlowError Intent × List Effect :=
  match Edit.useSettlementCurrency with
  | .error error => (flow, .error error, [])
  | .ok edit => flow.edit account edit

/-- A call of the attempt failed: it ends with the error, or superseded. -/
def fail (flow : Flow) (call : OpenCall) (error : FlowError) (bridged : Bool) :
    Flow × List Effect :=
  match flow.desk.fail call.attempt error bridged with
  | some desk => { flow with desk }.finish call.id (.failed error)
  | none => flow.finish call.id .superseded

/-- The executor accepted or refused what the call handed it. -/
def submitted (flow : Flow) (settings : Settings) (id : Nat) (outcome : Except FlowError TxHash) :
    Flow × List Effect :=
  match flow.find? id with
  | none => (flow, [])
  | some call =>
    let chainId := call.attempt.intent.chain.id
    match call.stage, outcome with
    | .approving, .ok hash =>
      (flow.advance id (.approvalSent hash), [.awaitReceipt id chainId hash])
    | .approving, .error error => flow.fail call error false
    | .executing, .ok hash =>
      let desk := flow.desk.recordFlight settings call.attempt hash
      ({ flow with desk }.advance id (.sent hash), [.awaitReceipt id chainId hash])
    | .executing, .error error => flow.fail call error call.attempt.plan.bridged
    | _, _ => (flow, [])

/-- What a settled execution leads to outside. -/
def refreshes : Settled → List Effect
  | .confirmed target => [.refresh target]
  | _ => []

/-- What a settled execution answers to the call that waited for it. -/
def answerOf (hash : TxHash) : Settled → Answer
  | .confirmed _ | .alreadyConfirmed => .confirmed hash
  | .failed error => .failed error
  | .ignored => .superseded

/-- The receipt that the call waited for arrived, or waiting for it failed. -/
def mined (flow : Flow) (settings : Settings) (id : Nat) (outcome : Except FlowError Bool) :
    Flow × List Effect :=
  match flow.find? id with
  | none => (flow, [])
  | some call =>
    match call.stage with
    | .approvalSent hash =>
      match outcome with
      | .error error => flow.fail call error false
      | .ok false => flow.fail call (.notMined hash.text) false
      | .ok true =>
        match flow.desk.approve call.attempt with
        | none => flow.finish id .superseded
        | some desk =>
          let intent := call.attempt.intent
          let rereads := match settings.contracts.spender? intent.chain with
            | some spender =>
              [Effect.rereadAllowance intent.chain.id intent.token call.attempt.account spender]
            | none => []
          ({ flow with desk }.advance id .approved, .ready id :: rereads)
    | .sent hash =>
      let (desk, settled) := flow.desk.settle hash outcome
      let (flow, effects) := { flow with desk }.finish id (answerOf hash settled)
      (flow, refreshes settled ++ effects)
    | _ => (flow, [])

/-- The call takes its turn after its approval. -/
def proceed (flow : Flow) (id : Nat) : Flow × List Effect :=
  match flow.find? id with
  | none => (flow, [])
  | some call =>
    match call.stage with
    | .approved =>
      match flow.desk.claim call.attempt with
      | some desk => ({ flow with desk }.advance id .executing, [handOutExecution id call.attempt])
      | none => flow.finish id .superseded
    | _ => (flow, [])

/-- A report on an execution arrives from elsewhere.  It answers whether it
changed the status. -/
def report (flow : Flow) (hash : TxHash) (confirmed : Bool) : Flow × Bool × List Effect :=
  let (desk, settled) := flow.desk.settle hash (.ok confirmed)
  let changed := match settled with
    | .confirmed _ | .failed _ => true
    | _ => false
  ({ flow with desk }, changed, refreshes settled)

/-- The caller of the call goes away; it never takes another step. -/
def abandon (flow : Flow) (id : Nat) : Flow := flow.drop id

end Flow

/-- One step from outside.  The account and the cached reads are what they are
at that moment. -/
inductive Move where
  | edit (account : Option Address) (edit : Edit)
  | submit (cache : ReadCache) (account : Option Address)
  | tick (cache : ReadCache) (account : Option Address)
  | report (hash : TxHash) (confirmed : Bool)
  | submitted (id : Nat) (outcome : Except FlowError TxHash)
  | mined (id : Nat) (outcome : Except FlowError Bool)
  | proceed (id : Nat)
  | abandon (id : Nat)

/-- The call that goes through what its receipt leads to before it answers. -/
def Move.caller? : Move → Option Nat
  | .mined id _ => some id
  | _ => none

namespace Flow

def step (settings : Settings) (flow : Flow) : Move → Flow × List Effect
  | .edit account edit =>
    let (flow, _, effects) := flow.edit account edit
    (flow, effects)
  | .submit cache account => flow.submit settings cache account
  | .tick cache account => flow.tick settings cache account
  | .report hash confirmed =>
    let (flow, _, effects) := flow.report hash confirmed
    (flow, effects)
  | .submitted id outcome => flow.submitted settings id outcome
  | .mined id outcome => flow.mined settings id outcome
  | .proceed id => flow.proceed id
  | .abandon id => (flow.abandon id, [])

/-- A run from a flow, with all its effects. -/
def run (settings : Settings) (flow : Flow) : List Move → Flow × List Effect
  | [] => (flow, [])
  | move :: moves =>
    let (flow, effects) := flow.step settings move
    let (last, later) := flow.run settings moves
    (last, effects ++ later)

end Flow

end DonationFlow
