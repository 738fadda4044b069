import DonationFlow.Proofs.Desk.Trail
import DonationFlow.Proofs.Flow.Coherence
import DonationFlow.Proofs.Flow.OnceOnly

/-!
# The life of a status

`Status.next` is the diagram of the statuses: what each may be followed by.  No
step leaves the diagram, because a final success clears the amount and so leaves
nothing to be submitted, and only an execution that is pending can succeed.  Main
statement: `log_follows_diagram`, by which the log of every run from the start
tells a way through the diagram up to the current status, and the same of the
bridge status.
-/

namespace DonationFlow

/-- The statuses that may follow. -/
def Status.next : Status → List Status
  | idle => [approving, pending, error]
  | approving => [approved, error, idle]
  | approved => [pending, idle]
  | pending => [success, error, idle]
  | success => [idle]
  | error => [approving, pending, idle]

theorem Status.eq_or_idle_mem_next (status : Status) : .idle = status ∨ .idle ∈ status.next := by
  cases status <;> decide

theorem Status.ne_of_mem_next {old new : Status} (h : new ∈ old.next) : old ≠ new := by
  rintro rfl
  revert h
  cases old <;> decide

namespace Flow

/-- The status stays or goes on in the diagram. -/
def Follows (old new : Status) : Prop := new = old ∨ new ∈ old.next

theorem Follows.of_mem {old new : Status} (earlier later : Status) (hold : old = earlier)
    (hnew : new = later) (h : later ∈ earlier.next) : Follows old new := by
  rw [hold, hnew]
  exact Or.inr h

/-- Told only if it is news, the new status leads on from the old one. -/
theorem Follows.leads {old new : Status} (h : Follows old new) :
    Leads (fun old new => new ∈ old.next) old (if old = new then [] else [new]) new := by
  rcases h with rfl | hmem
  · rw [if_pos rfl]
    exact .refl _
  · rw [if_neg (Status.ne_of_mem_next hmem)]
    exact .single hmem

section Steps

variable {settings : Settings} {flow after : Flow} {move : Move} {effects : List Effect}

/-- Nothing is left to be submitted after a success. -/
def Cleared (desk : Desk) : Prop := desk.status = .success → desk.intent.units.isZero = true

theorem cleared_of_coherent {desk : Desk} (h : desk.Coherent settings) : Cleared desk := by
  intro hsuccess
  rw [← h.cleared hsuccess]
  rfl

theorem Cleared.idle_or_error {desk : Desk} (h : Cleared desk)
    (hended : desk.status.isInProgress = false) (hunits : desk.intent.units.isZero = false) :
    desk.status = .idle ∨ desk.status = .error := by
  rcases Status.idle_or_final hended with hidle | hsuccess | herror
  · exact Or.inl hidle
  · rw [h hsuccess] at hunits
    cases hunits
  · exact Or.inr herror

/-- A submission that finds no plan is for some amount. -/
theorem units_of_unplanned {desk : Desk} {cache : ReadCache} {account : Option Address}
    {error : FlowError}
    (hsubmit : desk.submit settings cache account = (desk.unplanned error, .error error)) :
    desk.intent.units.isZero = false := by
  cases hunits : desk.intent.units.isZero with
  | false => rfl
  | true =>
    have hrefused : (desk.submit settings cache account).1 = desk := by
      unfold Desk.submit
      split
      · rfl
      · simp only [hunits, if_true]
        split <;> rfl
    rw [hsubmit, Desk.unplanned_eq] at hrefused
    exact absurd (congrArg Desk.epoch hrefused) (Nat.succ_ne_self _)

theorem follows_typeIf (desk : Desk) (amount : Option String) :
    Follows desk.status (desk.typeIf amount).status := by
  rcases desk.typeIf_status amount with hsame | ⟨-, hidle⟩
  · exact Or.inl hsame
  · rw [hidle]
    exact desk.status.eq_or_idle_mem_next

theorem Owned.follows_settles (h : flow.Owned) {hash : TxHash} {outcome : Except FlowError Bool}
    {desk : Desk} {settled : Settled}
    (hsettles : Desk.Settles flow.desk hash outcome desk settled) :
    Follows flow.desk.status desk.status := by
  cases hsettles with
  | known | strayed | lost => exact Or.inl rfl
  | succeeded _ hflight =>
    rw [Desk.applySuccess_eq]
    exact .of_mem .pending .success (h.flight_pending _ hflight) rfl (by decide)
  | failed _ hflight =>
    rw [Desk.applyFailure_eq]
    exact .of_mem .pending .error (h.flight_pending _ hflight) rfl (by decide)

/-- No step leaves the diagram. -/
theorem Step.follows (step : Step settings flow move after effects) (howned : flow.Owned)
    (hcleared : Cleared flow.desk) : Follows flow.desk.status after.desk.status := by
  cases step with
  | declined | refused | passed | missed | approvalAccepted | superseded | abandoned =>
    exact Or.inl rfl
  | restarted =>
    rw [Desk.typeIf_reset_status]
    exact flow.desk.status.eq_or_idle_mem_next
  | retyped => exact follows_typeIf _ _
  | unplannable hended hsubmit =>
    rw [Desk.unplanned_eq]
    -- A success cannot come here, because it leaves no amount to be submitted.
    rcases hcleared.idle_or_error hended (units_of_unplanned hsubmit) with hidle | herror
    · exact .of_mem .idle .error hidle rfl (by decide)
    · exact Or.inl herror.symm
  | asked hended hunits =>
    rw [Desk.enter_eq]
    rcases hcleared.idle_or_error hended hunits with hidle | herror
    · exact .of_mem .idle .approving hidle rfl (by decide)
    · exact .of_mem .error .approving herror rfl (by decide)
  | executed hended hunits =>
    rw [Desk.beginExecution_eq]
    rcases hcleared.idle_or_error hended hunits with hidle | herror
    · exact .of_mem .idle .pending hidle rfl (by decide)
    · exact .of_mem .error .pending herror rfl (by decide)
  | resumed happroved | claimed _ _ _ happroved =>
    rw [Desk.beginExecution_eq]
    exact .of_mem .approved .pending happroved rfl (by decide)
  | reported hsettles | settled _ _ hsettles => exact howned.follows_settles hsettles
  | executionAccepted =>
    rw [Desk.recordFlight_eq]
    exact Or.inl rfl
  | failed _ hcall hfailure hepoch =>
    rw [Desk.failWith_eq]
    rcases howned.status_of_failure hcall hfailure hepoch with
      ⟨-, happroving⟩ | ⟨-, hpending, -⟩
    · exact .of_mem .approving .error happroving rfl (by decide)
    · exact .of_mem .pending .error hpending rfl (by decide)
  | approved hcall hstage hepoch =>
    rw [Desk.enter_eq]
    exact .of_mem .approving .approved (howned.shows_of_find? hcall hepoch hstage) rfl (by decide)

theorem Step.tellsBridge (step : Step settings flow move after effects) :
    flow.desk.TellsBridge after.desk := by
  cases step with
  | declined | refused | passed | missed | approvalAccepted | superseded | abandoned =>
    exact .of_eq rfl rfl
  | restarted => exact (Desk.tellsBridge_reset _ _).trans (Desk.tellsBridge_typeIf _ _)
  | retyped => exact Desk.tellsBridge_typeIf _ _
  | unplannable => exact Desk.tellsBridge_unplanned _ _
  | asked => exact flow.desk.tellsBridge_taken.trans (Desk.tellsBridge_enter _ _)
  | executed => exact flow.desk.tellsBridge_taken.trans (Desk.tellsBridge_beginExecution _ _)
  | resumed | claimed => exact Desk.tellsBridge_beginExecution _ _
  | reported hsettles | settled _ _ hsettles => exact hsettles.tellsBridge
  | executionAccepted =>
    rw [Desk.recordFlight_eq]
    exact .of_eq rfl rfl
  | failed => exact Desk.tellsBridge_failWith _ _ _
  | approved => exact Desk.tellsBridge_enter _ _

end Steps

/-- The log tells a way through the diagram up to the current status, and all
changes of the bridge status up to the current one. -/
structure Faithful (flow : Flow) : Prop where
  owned : flow.Owned
  cleared : Cleared flow.desk
  status : Leads (fun old new => new ∈ old.next) .idle
    (flow.desk.log.filterMap Event.status?) flow.desk.status
  bridge : Leads (· ≠ ·) .idle (flow.desk.log.filterMap Event.bridge?) flow.desk.bridge

theorem Faithful.step {settings : Settings} {flow : Flow} (h : flow.Faithful)
    (hcoherent : flow.desk.Coherent settings) (move : Move) :
    (flow.step settings move).1.Faithful := by
  have hstep := steps settings flow move
  have hafter := hstep.coherent h.owned hcoherent
  refine ⟨hstep.owned h.owned, cleared_of_coherent hafter, ?_, ?_⟩
  · obtain ⟨notices, events, hlog, hstatus, -⟩ := (hstep.ends h.owned).tells
    have hleads := (hstep.follows h.owned h.cleared).leads
    rw [← hstatus] at hleads
    rw [show (flow.step settings move).1.desk.log = flow.desk.log ++ events from hlog,
      List.filterMap_append]
    exact h.status.trans hleads
  · obtain ⟨events, hlog, hleads⟩ := hstep.tellsBridge
    rw [hlog, List.filterMap_append]
    exact h.bridge.trans hleads

theorem faithful_reached (settings : Settings) (moves : List Move) :
    (({} : Flow).reached settings moves).Faithful := by
  apply owned_start.reached_induction (P := Faithful)
  · exact
      { owned := owned_start
        cleared := cleared_of_coherent (coherent_start settings)
        status := .refl Status.idle
        bridge := .refl BridgeStatus.idle }
  · intro turn hturn _ h
    obtain ⟨early, move, late, -, rfl⟩ := exists_of_mem_history hturn
    exact h.step (coherent_reached settings early) move

theorem Cleared.submit_eq {desk : Desk} (h : Cleared desk) (hsuccess : desk.status = .success)
    (settings : Settings) (cache : ReadCache) (account : Option Address) :
    ∃ error, desk.submit settings cache account = (desk, .error error) := by
  cases account with
  | none => exact ⟨.notConnected, rfl⟩
  | some account =>
    have hended : desk.status.isInProgress = false := by
      rw [hsuccess]
      rfl
    refine ⟨.zeroAmount, ?_⟩
    simp [Desk.submit, hended, h hsuccess]

/-- Whatever the order of submissions, ticks, edits, reports and answers: the log
tells each change of the status and no other, along the diagram and up to the
current status, and likewise each change of the bridge status.  So only what is
pending succeeds; and after a success nothing is submitted before the status is
idle again. -/
theorem log_follows_diagram (settings : Settings) (moves : List Move) :
    let last := ({} : Flow).reached settings moves
    let statuses := Status.idle :: last.desk.log.filterMap Event.status?
    let bridges := BridgeStatus.idle :: last.desk.log.filterMap Event.bridge?
    statuses.IsChain (fun old new => old ≠ new ∧ new ∈ old.next) ∧
    statuses.getLast? = some last.desk.status ∧
    bridges.IsChain (· ≠ ·) ∧ bridges.getLast? = some last.desk.bridge ∧
    (∀ old, [old, .success] <:+: statuses → old = .pending) ∧
    (∀ new, [.success, new] <:+: statuses → new = .idle) ∧
    (last.desk.status = .success → ∀ cache account,
      ∃ error, last.desk.submit settings cache account = (last.desk, .error error)) := by
  intro last statuses bridges
  have h : last.Faithful := faithful_reached settings moves
  refine ⟨h.status.chain.imp fun old new hmem => ⟨Status.ne_of_mem_next hmem, hmem⟩,
    h.status.last, h.bridge.chain, h.bridge.last, ?_, ?_, ?_⟩
  · intro old htold
    have hpair := List.IsChain.infix h.status.chain htold
    have hmem : .success ∈ old.next := List.isChain_pair.1 hpair
    revert hmem
    cases old <;> decide
  · intro new htold
    have hpair := List.IsChain.infix h.status.chain htold
    have hmem : new ∈ Status.success.next := List.isChain_pair.1 hpair
    exact List.mem_singleton.1 hmem
  · exact fun hsuccess => h.cleared.submit_eq hsuccess settings

theorem log_follows_diagram_of_raceRun :
    let last := ({} : Flow).reached trialSettings
      (raceRun ++ [.submitted 1 (.ok trialHash), .mined 1 (.ok true)])
    let statuses := Status.idle :: last.desk.log.filterMap Event.status?
    [.pending, .success] <:+: statuses ∧ (∀ old, [old, .success] <:+: statuses → old = .pending) ∧
      last.desk.status = .success ∧
      ∃ error, last.desk.submit trialSettings {} (some default) = (last.desk, .error error) := by
  intro last statuses
  have htold : [.pending, .success] <:+: statuses := by decide +kernel
  have hsuccess : last.desk.status = .success := by decide +kernel
  obtain ⟨-, -, -, -, honly, -, hrefused⟩ := log_follows_diagram trialSettings
    (raceRun ++ [.submitted 1 (.ok trialHash), .mined 1 (.ok true)])
  exact ⟨htold, honly, hsuccess, hrefused hsuccess {} (some default)⟩

end Flow

end DonationFlow
