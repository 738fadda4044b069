import DonationFlow.Intent
import DonationFlow.ReadCache

/-!
# Refreshing after a success

A confirmed transaction makes cached reads stale.  They are read again at once
and a second time after a delay, since a node may lag behind.
-/

namespace DonationFlow

/-- What an executed call has changed. -/
structure RefreshTarget where
  chainId : Nat
  token : Token
  owner : Address
  spender : Option Address
  action : Action
  campaign : Word
  deriving DecidableEq, Repr

namespace RefreshTarget

/-- The reads of one pass, in order. -/
def reads (target : RefreshTarget) : List Read :=
  let allowance := match target.spender with
    | some spender => [Read.allowance target.chainId target.token target.owner spender]
    | none => []
  let position := match target.action with
    | .donate => []
    | .stake => [Read.staking target.owner target.campaign]
    | .wealthBuild => [Read.endowment target.owner target.campaign]
  (.balance target.chainId target.token target.owner :: (allowance ++ position)).filter
    Read.reachesChain

end RefreshTarget

/-- Where a refresh stands: in its first pass with reads to come, broken off in it,
waiting for the second, in the second, or through. -/
inductive RefreshPhase where
  | first (left : List Read)
  | cut
  | waiting (due : Nat)
  | second (left : List Read)
  | ended
  deriving DecidableEq, Repr

/-- The two passes over one target. -/
structure RefreshJob where
  target : RefreshTarget
  delay : Nat
  /-- The call that goes through the first pass before it answers; none if whoever
  reported the success does. -/
  caller : Option Nat
  phase : RefreshPhase
  /-- Whether the flow was shut down; a pass under way is not broken off. -/
  cancelled : Bool := false
  deriving DecidableEq, Repr

namespace RefreshJob

/-- The first pass starts with all its reads to come. -/
def start (target : RefreshTarget) (delay : Nat) (caller : Option Nat) (cancelled : Bool) :
    RefreshJob :=
  { target, delay, caller, phase := .first target.reads, cancelled }

/-- The read that is under way. -/
def current? (job : RefreshJob) : Option Read :=
  match job.phase with
  | .first (read :: _) | .second (read :: _) => some read
  | _ => none

/-- When the second pass is due, while it is waited for. -/
def due? (job : RefreshJob) : Option Nat :=
  match job.phase with
  | .waiting due => some due
  | _ => none

/-- The read under way came back, well or not, at time `now`. -/
def landed (job : RefreshJob) (now : Nat) : RefreshJob :=
  match job.phase with
  | .first (_ :: read :: left) => { job with phase := .first (read :: left) }
  | .first _ =>
    { job with phase := if job.cancelled then .ended else .waiting (now + job.delay) }
  | .second (_ :: read :: left) => { job with phase := .second (read :: left) }
  | .second _ => { job with phase := .ended }
  | _ => job

/-- The clock shows `now`. -/
def wake (job : RefreshJob) (now : Nat) : RefreshJob :=
  match job.phase with
  | .waiting due => if due ≤ now then { job with phase := .second job.target.reads } else job
  | _ => job

def cancel (job : RefreshJob) : RefreshJob :=
  match job.phase with
  | .waiting _ => { job with phase := .ended, cancelled := true }
  | _ => { job with cancelled := true }

/-- The caller goes away.  The first pass goes with the one that goes through it; the
second one is left to itself. -/
def abandon (job : RefreshJob) (caller : Option Nat) : RefreshJob :=
  match job.phase with
  | .first _ => if job.caller = caller then { job with phase := .cut } else job
  | _ => job

end RefreshJob

/-- The refreshes that one owner started, the oldest first. -/
structure Refresher where
  jobs : List RefreshJob := []
  cancelled : Bool := false

namespace Refresher

/-- The target was changed by a success, which the caller was waiting for. -/
def start (refresher : Refresher) (target : RefreshTarget) (delay : Nat) (caller : Option Nat) :
    Refresher :=
  { refresher with
    jobs := refresher.jobs ++ [RefreshJob.start target delay caller refresher.cancelled] }

/-- A refresh starts of each target. -/
def startAll (refresher : Refresher) (targets : List RefreshTarget) (delay : Nat)
    (caller : Option Nat) : Refresher :=
  targets.foldl (Refresher.start · · delay caller) refresher

/-- The read that is under way in the refresh of that index. -/
def current? (refresher : Refresher) (index : Nat) : Option Read :=
  refresher.jobs[index]?.bind RefreshJob.current?

/-- When the next second pass is due. -/
def due? (refresher : Refresher) : Option Nat := (refresher.jobs.filterMap RefreshJob.due?).min?

/-- The read under way in the refresh of that index came back. -/
def landed (refresher : Refresher) (index now : Nat) : Refresher :=
  { refresher with jobs := refresher.jobs.modify index (RefreshJob.landed · now) }

/-- The clock shows `now`. -/
def wake (refresher : Refresher) (now : Nat) : Refresher :=
  { refresher with jobs := refresher.jobs.map (RefreshJob.wake · now) }

def cancel (refresher : Refresher) : Refresher where
  jobs := refresher.jobs.map RefreshJob.cancel
  cancelled := true

/-- The call goes away. -/
def abandon (refresher : Refresher) (caller : Nat) : Refresher :=
  { refresher with jobs := refresher.jobs.map (RefreshJob.abandon · (some caller)) }

/-- Whoever reported the success behind the refresh of that index goes away. -/
def hangUp (refresher : Refresher) (index : Nat) : Refresher :=
  { refresher with jobs := refresher.jobs.modify index (RefreshJob.abandon · none) }

end Refresher

end DonationFlow
