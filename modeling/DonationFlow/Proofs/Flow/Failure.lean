import DonationFlow.Proofs.Flow.Disclosure
import DonationFlow.Proofs.Flow.Lockstep

/-!
# What a failure leaves

A submission fails in four ways: the executor refuses its approval or its
execution, the receipt of the approval does not come, that of the execution does
not come, or the execution is reported to have failed.  Two operations of the desk
apply them, each with a gate of its own, and both come to `Desk.brokenOff`: one
update that leaves the intent, the epoch and the processed hashes, so that the
same intent can be submitted again.  Main statement:
`failure_leaves_desk_retryable`.
-/

namespace DonationFlow

/-- The move brings a failure: the executor refuses, or a receipt says that the
transaction was not confirmed, or does not come. -/
def Move.bringsFailure : Move → Prop
  | .submitted _ outcome => ∃ error, outcome = .error error
  | .mined _ outcome => outcome ≠ .ok true
  | .report _ confirmed => confirmed = false
  | _ => False

namespace Desk

/-- The desk once a submission was broken off, its relay under way or not. -/
def brokenOff (desk : Desk) (crossing : Bool) (error : FlowError) (hash : Option TxHash) : Desk :=
  { desk with
    status := .error
    bridge := if crossing then .failed else .idle
    inFlight := none
    lastError := some error
    log := desk.log ++ .status .error :: (if crossing then [.bridge .failed] else []) ++
      [.notice (.failed (Notice.failure error) hash)] }

variable {desk : Desk} {crossing : Bool} {settings : Settings}

theorem news_failed (hbridge : desk.bridge = if crossing then .bridging else .idle) :
    desk.bridgeIf crossing .failed = (if crossing then .failed else .idle) ∧
      BridgeStatus.news desk.bridge (desk.bridgeIf crossing .failed) =
        if crossing then [.bridge .failed] else [] := by
  rw [bridgeIf, hbridge]
  cases crossing <;> decide

/-- A failing call breaks its submission off. -/
theorem failWith_eq_brokenOff (hstatus : desk.status ≠ .error) (hflight : desk.inFlight = none)
    (hbridge : desk.bridge = if crossing then .bridging else .idle) (error : FlowError) :
    desk.failWith error crossing = desk.brokenOff crossing error none := by
  obtain ⟨hafter, hnews⟩ := news_failed hbridge
  rw [failWith_eq, brokenOff, Status.news_of_ne hstatus, hnews, hafter, hflight]
  simp only [List.append_assoc, List.cons_append, List.nil_append]

/-- So does a failing execution. -/
theorem applyFailure_eq_brokenOff {flight : InFlight} (hstatus : desk.status ≠ .error)
    (hflight : flight.bridged = crossing)
    (hbridge : desk.bridge = if crossing then .bridging else .idle) (hash : TxHash)
    (error : FlowError) :
    desk.applyFailure flight hash error = desk.brokenOff crossing error (some hash) := by
  obtain ⟨hafter, hnews⟩ := news_failed hbridge
  rw [applyFailure_eq, brokenOff, hflight, Status.news_of_ne hstatus, hnews, hafter]
  simp only [List.append_assoc, List.cons_append, List.nil_append]

/-- Past the refusals, an intent with a plan is accepted. -/
theorem exists_submit_eq (hstatus : desk.status.isInProgress = false)
    (hunits : desk.intent.units.isZero = false) {plan : Plan}
    (hplan : Plan.ofIntent desk.intent settings.campaign settings.contracts = .ok plan)
    (cache : ReadCache) (account : Address) :
    ∃ accepted approval, desk.submit settings cache (some account) =
      (accepted, .ok (⟨desk.epoch + 1, account, desk.intent, plan⟩, approval)) := by
  have hintent : desk.taken.intent = desk.intent := by rw [taken_eq]
  have hepoch : desk.taken.epoch = desk.epoch + 1 := by rw [taken_eq]
  rw [submit_eq_taken settings cache account hstatus hunits, hintent, hplan, hepoch]
  dsimp only
  split
  · exact ⟨_, _, rfl⟩
  · exact ⟨_, _, rfl⟩

end Desk

namespace Flow

/-- The failures of the current submission, with the error that each of them
brings and the hash under which the execution had been accepted. -/
inductive Fails (flow : Flow) : Move → FlowError → Option TxHash → Prop
  | refused {id : Nat} {call : OpenCall} {error : FlowError} (hcall : flow.find? id = some call)
      (hstage : call.stage = .approving ∨ call.stage = .executing)
      (hepoch : flow.desk.epoch = call.attempt.epoch) :
      Fails flow (.submitted id (.error error)) error none
  | unapproved {id : Nat} {call : OpenCall} {hash : TxHash} {outcome : Except FlowError Bool}
      (hcall : flow.find? id = some call) (hstage : call.stage = .approvalSent hash)
      (hepoch : flow.desk.epoch = call.attempt.epoch) (houtcome : outcome ≠ .ok true) :
      Fails flow (.mined id outcome) (Desk.failureOf hash outcome) none
  | unmined {id : Nat} {call : OpenCall} {hash : TxHash} {outcome : Except FlowError Bool}
      (hcall : flow.find? id = some call) (hstage : call.stage = .sent hash)
      (hawaits : flow.desk.Awaits hash) (houtcome : outcome ≠ .ok true) :
      Fails flow (.mined id outcome) (Desk.failureOf hash outcome) (some hash)
  | reported {hash : TxHash} (hawaits : flow.desk.Awaits hash) :
      Fails flow (.report hash false) (.notMined hash.text) (some hash)

/-- The execution of the current submission was handed out and has to cross. -/
def crossing (flow : Flow) (past : List Turn) : Bool :=
  flow.desk.intent.isBridged && decide (flow.desk.epoch ∈ executions past)

section Steps

variable {settings : Settings} {flow after : Flow} {move : Move} {effects : List Effect}
  {past : List Turn} {id : Nat} {call : OpenCall} {error : FlowError} {bridged : Bool}

theorem step_eq_fail (hcall : flow.find? id = some call) (hmove : move.call? = some id)
    (hfailure : call.FailsBy move error bridged) :
    flow.step settings move = flow.fail call error bridged := by
  cases hfailure with
  | approval hstage | execution hstage =>
    obtain rfl := Option.some.inj hmove
    simp only [step, submitted, hcall, hstage]
  | @receipt _ hash outcome hstage houtcome =>
    obtain rfl := Option.some.inj hmove
    obtain error | _ | _ := outcome
    · simp only [step, mined, hcall, hstage, Desk.failureOf]
    · simp only [step, mined, hcall, hstage, Desk.failureOf]
    · exact absurd rfl houtcome

/-- A failing call of the current epoch fails in one of the first two ways. -/
theorem fails_of_failsBy (hcall : flow.find? id = some call) (hmove : move.call? = some id)
    (hfailure : call.FailsBy move error bridged)
    (hepoch : flow.desk.epoch = call.attempt.epoch) : flow.Fails move error none := by
  cases hfailure with
  | approval hstage =>
    obtain rfl := Option.some.inj hmove
    exact .refused hcall (Or.inl hstage) hepoch
  | execution hstage =>
    obtain rfl := Option.some.inj hmove
    exact .refused hcall (Or.inr hstage) hepoch
  | receipt hstage houtcome =>
    obtain rfl := Option.some.inj hmove
    exact .unapproved hcall hstage hepoch houtcome

/-- A failure is one of the current submission, or it leaves the desk. -/
theorem Step.fails_or_desk_eq (step : Step settings flow move after effects)
    (hmove : move.bringsFailure) :
    (∃ error hash, flow.Fails move error hash) ∨ after.desk = flow.desk := by
  cases step with
  | declined | restarted | retyped | refused | unplannable | asked | executed | passed | resumed
  | claimed => exact hmove.elim
  | missed | superseded | abandoned => exact Or.inr rfl
  | approvalAccepted | executionAccepted =>
    obtain ⟨_, haccepted⟩ := hmove
    cases haccepted
  | approved => exact absurd rfl hmove
  | reported hsettles =>
    obtain rfl := hmove
    cases hsettles with
    | known | lost => exact Or.inr rfl
    | failed hnone hflight hhash =>
      exact Or.inl ⟨_, _, .reported ⟨hnone, _, hflight, hhash⟩⟩
  | failed hcalled hcall hfailure hepoch =>
    exact Or.inl ⟨_, _, fails_of_failsBy hcall hcalled (OpenCall.failure?_eq_some_iff.1 hfailure)
      hepoch⟩
  | settled hcall hstage hsettles =>
    cases hsettles with
    | known | lost => exact Or.inr rfl
    | succeeded | strayed => exact absurd rfl hmove
    | failed hnone hflight hhash houtcome =>
      exact Or.inl ⟨_, _, .unmined hcall hstage ⟨hnone, _, hflight, hhash⟩ houtcome⟩

/-- Until the execution is handed out nothing crosses. -/
theorem Lockstep.crossing_of_approving (h : Lockstep settings past flow)
    (hstatus : flow.desk.status = .approving) :
    flow.crossing past = false ∧ flow.desk.bridge = .idle := by
  have hprecedes : flow.desk.status.precedesExecution = true := by rw [hstatus]; rfl
  have hnot : flow.desk.epoch ∉ executions past :=
    (h.counted.progress (Status.isInProgress_of_precedesExecution hprecedes)).2 hprecedes
  exact ⟨by simp [crossing, hnot], h.inStep.idle_of_precedes hprecedes⟩

theorem Lockstep.crossing_of_pending (h : Lockstep settings past flow)
    (hstatus : flow.desk.status = .pending) :
    flow.crossing past = flow.desk.intent.isBridged ∧
      flow.desk.bridge = if flow.desk.intent.isBridged then .bridging else .idle := by
  have hexecuted := h.pending hstatus
  exact ⟨by simp [crossing, hexecuted], h.inStep.eq_of_bridges (by rw [hstatus]; rfl)⟩

/-- What a failure comes to, whichever operation applies it. -/
structure BreaksOff (past : List Turn) (turn : Turn) (error : FlowError)
    (hash : Option TxHash) : Prop where
  desk : turn.after.desk = turn.before.desk.brokenOff (turn.before.crossing past) error hash
  bridge : turn.before.desk.bridge = if turn.before.crossing past then .bridging else .idle
  flight : hash = turn.before.desk.inFlight.map (·.hash)
  effects : turn.effects = (turn.move.call?.map (.answer · (.failed error))).toList

theorem Lockstep.breaksOff_of_failsBy (h : Lockstep settings past flow)
    (hcall : flow.find? id = some call) (hmove : move.call? = some id)
    (hfails : call.FailsBy move error bridged)
    (hepoch : flow.desk.epoch = call.attempt.epoch) :
    BreaksOff past (flow.turn settings move) error none := by
  have howned := h.counted.owned
  have hfailure := OpenCall.failure?_eq_some_iff.2 hfails
  have hflight := howned.inFlight_eq_none_of_failure hcall hfailure hepoch
  obtain ⟨hstatus, hcrossing, hbridge⟩ : flow.desk.status ≠ .error ∧
      bridged = flow.crossing past ∧
      flow.desk.bridge = if flow.crossing past then .bridging else .idle := by
    rw [OpenCall.bridged_of_failure hfailure,
      h.tied.bridged_of_find? h.counted.planned hcall hepoch]
    rcases howned.status_of_failure hcall hfailure hepoch with
      ⟨happroves, hstatus⟩ | ⟨happroves, hstatus, -⟩
    · obtain ⟨hcrossing, hbridge⟩ := h.crossing_of_approving hstatus
      rw [happroves, hstatus, hcrossing]
      exact ⟨by simp, rfl, hbridge⟩
    · obtain ⟨hcrossing, hbridge⟩ := h.crossing_of_pending hstatus
      rw [happroves, hstatus, hcrossing]
      exact ⟨by simp, rfl, hbridge⟩
  have hfail : flow.step settings move = ({ flow with
      desk := flow.desk.failWith error bridged } : Flow).finish call.id (.failed error) := by
    rw [step_eq_fail hcall hmove hfails, fail, Desk.fail_eq, if_pos hepoch]
  refine ⟨?_, hbridge, by rw [turn, hflight]; rfl, ?_⟩
  · rw [hcrossing] at hfail
    show (flow.step settings move).1.desk = _
    rw [hfail]
    exact Desk.failWith_eq_brokenOff hstatus hflight hbridge error
  · show (flow.step settings move).2 = _
    rw [hfail, turn, hmove, id_of_find? hcall]
    rfl

/-- The failure of an execution whose outcome is awaited. -/
theorem Lockstep.settle_of_awaits (h : Lockstep settings past flow) {hash : TxHash}
    {outcome : Except FlowError Bool} (hawaits : flow.desk.Awaits hash)
    (houtcome : outcome ≠ .ok true) :
    flow.desk.settle hash outcome =
        (flow.desk.brokenOff (flow.crossing past) (Desk.failureOf hash outcome) (some hash),
          .failed (Desk.failureOf hash outcome)) ∧
      flow.desk.bridge = (if flow.crossing past then .bridging else .idle) ∧
      some hash = flow.desk.inFlight.map (·.hash) := by
  obtain ⟨hnone, flight, hflight, hhash⟩ := hawaits
  have hpending := h.counted.owned.flight_pending flight hflight
  obtain ⟨hcrossing, hbridge⟩ := h.crossing_of_pending hpending
  rw [← hcrossing] at hbridge
  refine ⟨?_, hbridge, by rw [hflight, ← hhash]; rfl⟩
  have hsettles := Desk.settles flow.desk hash outcome
  generalize flow.desk.settle hash outcome = result at hsettles ⊢
  obtain ⟨after, settled⟩ := result
  cases hsettles with
  | known _ hprocessed => cases hnone.symm.trans hprocessed
  | succeeded | strayed => exact absurd rfl houtcome
  | lost _ hother => exact absurd hhash (hother flight hflight)
  | failed _ hsome =>
    obtain rfl := Option.some.inj (hflight.symm.trans hsome)
    have hcrosses := (h.tied.flight flight hflight).trans hcrossing.symm
    exact congrArg (·, Settled.failed (Desk.failureOf hash outcome))
      (Desk.applyFailure_eq_brokenOff (by simp [hpending]) hcrosses hbridge hash _)

theorem Lockstep.breaksOff (h : Lockstep settings past flow) {hash : Option TxHash}
    (hfails : flow.Fails move error hash) :
    BreaksOff past (flow.turn settings move) error hash := by
  cases hfails with
  | refused hcall hstage hepoch =>
    rcases hstage with hstage | hstage
    · exact h.breaksOff_of_failsBy hcall rfl (.approval hstage) hepoch
    · exact h.breaksOff_of_failsBy hcall rfl (.execution hstage) hepoch
  | unapproved hcall hstage hepoch houtcome =>
    exact h.breaksOff_of_failsBy hcall rfl (.receipt hstage houtcome) hepoch
  | @unmined id call hash outcome hcall hstage hawaits houtcome =>
    obtain ⟨hsettle, hbridge, hflight⟩ := h.settle_of_awaits hawaits houtcome
    have hmined : flow.step settings (.mined id outcome) = ({ flow with
        desk := flow.desk.brokenOff (flow.crossing past) (Desk.failureOf hash outcome)
          (some hash) }.drop id, [.answer id (.failed (Desk.failureOf hash outcome))]) := by
      simp only [step, mined, hcall, hstage, hsettle]
      rfl
    exact ⟨congrArg (·.1.desk) hmined, hbridge, hflight, congrArg Prod.snd hmined⟩
  | @reported hash hawaits =>
    have hfailed : (Except.ok false : Except FlowError Bool) ≠ .ok true := by simp
    obtain ⟨hsettle, hbridge, hflight⟩ := h.settle_of_awaits hawaits hfailed
    have hreport : flow.step settings (.report hash false) = ({ flow with
        desk := flow.desk.brokenOff (flow.crossing past) (.notMined hash.text) (some hash) },
        []) := by
      simp only [step, report, hsettle]
      rfl
    exact ⟨congrArg (·.1.desk) hreport, hbridge, hflight, congrArg Prod.snd hreport⟩

end Steps

/-! ## Runs -/

/-- However a failure of the current submission is brought, it is applied at once
and alike.  The status becomes `error`; the error is kept, to be shown in its own
words; the bridge status becomes `failed` where the execution was handed out and
has to cross, and was and stays idle elsewhere; the status is told, and one
failure, with the hash if the execution was in flight.  The intent, the epoch and
the processed hashes stay, nothing is in flight any more, and nothing comes of the
step but the answer of the call that failed.  If there is an amount and a plan,
the intent is accepted at the next submission, as it stands.  A failure of any
other submission leaves the desk. -/
theorem failure_leaves_desk_retryable (settings : Settings) (moves : List Move) (move : Move) :
    let turns := ({} : Flow).history settings moves
    let flow := ({} : Flow).reached settings moves
    let turn := flow.turn settings move
    let crossing := flow.desk.intent.isBridged && decide (flow.desk.epoch ∈ executions turns)
    (∀ error hash, flow.Fails move error hash →
      turn.after.desk =
        { flow.desk with
          status := .error
          bridge := if crossing then .failed else .idle
          inFlight := none
          lastError := some error
          log := flow.desk.log ++ .status .error :: (if crossing then [.bridge .failed] else []) ++
            [.notice (.failed (Notice.failure error) hash)] } ∧
      turn.after.desk.lastError.map (·.message) = some error.message ∧
      flow.desk.bridge = (if crossing then .bridging else .idle) ∧
      hash = flow.desk.inFlight.map (·.hash) ∧
      turn.effects = (move.call?.map (.answer · (.failed error))).toList ∧
      ∀ cache account plan, flow.desk.intent.units.isZero = false →
        Plan.ofIntent flow.desk.intent settings.campaign settings.contracts = .ok plan →
        (turn.after.turn settings (.submit cache (some account))).accepted? settings =
          some ⟨flow.desk.epoch + 1, account, flow.desk.intent, plan⟩) ∧
    (move.bringsFailure →
      (∃ error hash, flow.Fails move error hash) ∨ turn.after.desk = flow.desk) := by
  intro turns flow turn crossing
  refine ⟨?_, (steps settings flow move).fails_or_desk_eq⟩
  intro error hash hfails
  have hbreaks := (lockstep_history settings moves).breaksOff hfails
  have hdesk : turn.after.desk = flow.desk.brokenOff crossing error hash := hbreaks.desk
  refine ⟨hdesk, by rw [hdesk]; rfl, hbreaks.bridge, hbreaks.flight, hbreaks.effects, ?_⟩
  intro cache account plan hunits hplan
  have hintent : turn.after.desk.intent = flow.desk.intent := by rw [hdesk]; rfl
  have hepoch : turn.after.desk.epoch = flow.desk.epoch := by rw [hdesk]; rfl
  have hstatus : turn.after.desk.status.isInProgress = false := by rw [hdesk]; rfl
  rw [← hintent] at hunits hplan
  obtain ⟨accepted, approval, hsubmit⟩ :=
    Desk.exists_submit_eq hstatus hunits hplan cache account
  rw [← hintent, ← hepoch]
  exact accepted?_of_submit hsubmit

/-- A gift that crosses is not mined, and is submitted again. -/
theorem failure_leaves_desk_retryable_of_crossingRun :
    let flow := ({} : Flow).reached bridgeSettings crossingRun
    let turn := flow.turn bridgeSettings (.mined 0 (.ok false))
    flow.Fails (.mined 0 (.ok false)) (.notMined trialHash.text) (some trialHash) ∧
      turn.after.desk.status = .error ∧ turn.after.desk.bridge = .failed ∧
      turn.after.desk.lastError.map (·.message) =
        some (FlowError.notMined trialHash.text).message ∧
      turn.after.desk.intent = flow.desk.intent ∧ turn.after.desk.inFlight = none ∧
      ∃ plan, Plan.ofIntent flow.desk.intent bridgeSettings.campaign bridgeSettings.contracts =
          .ok plan ∧
        (turn.after.turn bridgeSettings (.submit {} (some default))).accepted? bridgeSettings =
          some ⟨flow.desk.epoch + 1, default, flow.desk.intent, plan⟩ := by
  intro flow turn
  have hstage : (flow.find? 0).map (·.stage) = some (.sent trialHash) := by decide +kernel
  obtain ⟨call, hcall, hstage⟩ := Option.map_eq_some_iff.1 hstage
  have hflight : flow.desk.inFlight.map (·.hash) = some trialHash := by decide +kernel
  have hawaits : flow.desk.Awaits trialHash :=
    ⟨by decide +kernel, Option.map_eq_some_iff.1 hflight⟩
  have hfails : flow.Fails (.mined 0 (.ok false)) (.notMined trialHash.text) (some trialHash) :=
    .unmined hcall hstage hawaits (by simp)
  obtain ⟨hdesk, hmessage, -, -, -, hagain⟩ :=
    (failure_leaves_desk_retryable bridgeSettings crossingRun (.mined 0 (.ok false))).1 _ _ hfails
  obtain ⟨plan, hplan⟩ : ∃ plan, Plan.ofIntent flow.desk.intent bridgeSettings.campaign
      bridgeSettings.contracts = .ok plan := exists_of_isOk (by decide +kernel)
  have hfailed : (if flow.desk.intent.isBridged && decide (flow.desk.epoch ∈
      executions (({} : Flow).history bridgeSettings crossingRun)) then BridgeStatus.failed
      else .idle) = .failed := if_pos (by decide +kernel)
  have hbridge : turn.after.desk.bridge = .failed :=
    (congrArg Desk.bridge hdesk).trans hfailed
  exact ⟨hfails, by rw [hdesk], hbridge, hmessage, by rw [hdesk], by rw [hdesk], plan, hplan,
    hagain {} default plan (by decide +kernel) hplan⟩

end Flow

end DonationFlow
