import DonationFlow.Proofs.Flow.Acceptance

/-!
# The relay in step with the submission

The bridge status is set by five operations, each from a flag of its own: that of
a plan, of what is in flight, or a fixed one.  It is in step with the status
because all these flags say whether the chain of the current intent is bridged;
`Tied` carries this.  Main statement: `bridge_in_lockstep`.
-/

namespace DonationFlow

/-- The bridge statuses that go with a status on a bridged chain, given whether
the execution of the current submission was handed out. -/
def Status.bridges (executed : Bool) : Status → List BridgeStatus
  | idle => [.idle, .complete, .failed]
  | approving | approved => [.idle]
  | pending => [.bridging]
  | success => [.complete]
  | error => [if executed then .failed else .idle]

/-- Only after a failure it matters whether the execution was handed out. -/
theorem Status.bridges_congr {status : Status} {executed other : Bool}
    (h : status = .error → other = executed) : status.bridges other = status.bridges executed := by
  cases status with
  | error => rw [h rfl]
  | idle | approving | approved | pending | success => rfl

theorem Status.isInProgress_of_precedesExecution {status : Status}
    (h : status.precedesExecution = true) : status.isInProgress = true := by
  cases status with
  | approving | approved => rfl
  | idle | pending | success | error => cases h

/-- A final bridge status may stay when the status comes to be idle. -/
theorem Status.mem_bridges_idle {status : Status} {executed : Bool} {bridge : BridgeStatus}
    (hterminal : status.isTerminal = true) (h : bridge ∈ status.bridges executed) (other : Bool) :
    bridge ∈ Status.bridges other .idle := by
  cases status with
  | success =>
    rw [List.mem_singleton.1 h]
    simp [bridges]
  | error =>
    rw [List.mem_singleton.1 h]
    cases executed <;> simp [bridges]
  | idle | approving | approved | pending => cases hterminal

theorem Status.bridging_of_mem_bridges {status : Status} {executed : Bool}
    (h : .bridging ∈ status.bridges executed) : status = .pending := by
  cases status with
  | pending => rfl
  | error => cases executed <;> simp [bridges] at h
  | idle | approving | approved | success => simp [bridges] at h

/-- The two steps of a relay that would come after the bridge are never told. -/
theorem Status.not_mem_bridges (status : Status) (executed : Bool) :
    .confirming ∉ status.bridges executed ∧ .swapping ∉ status.bridges executed := by
  cases status <;> cases executed <;> decide

namespace Desk

/-- The bridge status goes with the status; where nothing is bridged it is idle. -/
def InStep (desk : Desk) (executed : Bool) : Prop :=
  desk.bridge ∈ if desk.intent.isBridged then desk.status.bridges executed else [.idle]

variable {desk after : Desk} {executed other : Bool}

theorem InStep.congr (h : desk.InStep executed) (hstatus : after.status = desk.status)
    (hbridge : after.bridge = desk.bridge) (hchain : after.intent.isBridged = desk.intent.isBridged)
    (hexecuted : desk.status = .error → other = executed) : after.InStep other := by
  unfold InStep at h ⊢
  rw [hstatus, hbridge, hchain, Status.bridges_congr hexecuted]
  exact h

theorem InStep.idle_of_direct (h : desk.InStep executed) (hdirect : desk.intent.isBridged = false) :
    desk.bridge = .idle := by
  rw [InStep, hdirect] at h
  exact List.mem_singleton.1 h

theorem InStep.mem_bridges (h : desk.InStep executed) (hbridged : desk.intent.isBridged = true) :
    desk.bridge ∈ desk.status.bridges executed := by
  rw [InStep, hbridged] at h
  exact h

theorem InStep.bridging_iff (h : desk.InStep executed) :
    desk.bridge = .bridging ↔ desk.status = .pending ∧ desk.intent.isBridged = true := by
  cases hchain : desk.intent.isBridged with
  | false =>
    rw [h.idle_of_direct hchain]
    simp
  | true =>
    have hmem := h.mem_bridges hchain
    constructor
    · intro hbridge
      rw [hbridge] at hmem
      exact ⟨Status.bridging_of_mem_bridges hmem, rfl⟩
    · rintro ⟨hstatus, -⟩
      rw [hstatus] at hmem
      exact List.mem_singleton.1 hmem

theorem InStep.ne_later (h : desk.InStep executed) :
    desk.bridge ≠ .confirming ∧ desk.bridge ≠ .swapping := by
  cases hchain : desk.intent.isBridged with
  | false =>
    rw [h.idle_of_direct hchain]
    decide
  | true =>
    obtain ⟨hconfirming, hswapping⟩ := Status.not_mem_bridges desk.status executed
    have hmem := h.mem_bridges hchain
    constructor <;> intro hbridge <;> rw [hbridge] at hmem
    · exact hconfirming hmem
    · exact hswapping hmem

/-- Where a status goes with one bridge status only, that one is shown on bridged
chains and none on the others. -/
theorem InStep.eq_of_bridges (h : desk.InStep executed) {bridge : BridgeStatus}
    (hstatus : desk.status.bridges executed = [bridge]) :
    desk.bridge = if desk.intent.isBridged then bridge else .idle := by
  cases hchain : desk.intent.isBridged with
  | false => exact h.idle_of_direct hchain
  | true =>
    have hmem := h.mem_bridges hchain
    rw [hstatus] at hmem
    exact List.mem_singleton.1 hmem

/-- Until the execution is handed out nothing is on its way. -/
theorem InStep.idle_of_precedes (h : desk.InStep executed)
    (hprecedes : desk.status.precedesExecution = true) : desk.bridge = .idle := by
  have hidle : desk.status.bridges executed = [.idle] := by
    cases hstatus : desk.status with
    | approving | approved => rfl
    | idle | pending | success | error =>
      rw [hstatus] at hprecedes
      cases hprecedes
  rw [h.eq_of_bridges hidle, ite_self]

theorem inStep_of_idle (hbridge : desk.bridge = .idle)
    (hstatus : .idle ∈ desk.status.bridges executed) : desk.InStep executed := by
  rw [InStep, hbridge]
  split
  · exact hstatus
  · exact List.mem_singleton.2 rfl

/-- An operation may set the bridge status if it does so on bridged chains only. -/
theorem inStep_of_bridgeIf {bridge : BridgeStatus} (hdirect : desk.intent.isBridged = false →
    desk.bridge = .idle) (hchain : after.intent.isBridged = desk.intent.isBridged)
    (hbridge : after.bridge = desk.bridgeIf desk.intent.isBridged bridge)
    (hstatus : bridge ∈ after.status.bridges executed) : after.InStep executed := by
  rw [InStep, hbridge, hchain, bridgeIf]
  cases hbridged : desk.intent.isBridged with
  | true => exact hstatus
  | false => exact List.mem_singleton.2 (hdirect hbridged)

theorem InStep.typeIf (h : desk.InStep executed) (amount : Option String)
    (hexecuted : (desk.typeIf amount).status = .error → other = executed)
    (hakin : (desk.typeIf amount).intent.Akin desk.intent) :
    (desk.typeIf amount).InStep other := by
  rcases desk.typeIf_status amount with hsame | ⟨hterminal, hidle⟩
  · exact h.congr hsame (typeIf_bridge _ _) hakin.isBridged (hsame ▸ hexecuted)
  · rw [InStep] at h ⊢
    rw [typeIf_bridge, hidle, hakin.isBridged]
    cases hchain : desk.intent.isBridged with
    | true =>
      rw [hchain] at h
      exact Status.mem_bridges_idle hterminal h other
    | false =>
      rw [hchain] at h
      exact h

theorem inStep_beginExecution {plan : Plan} (hplan : plan.bridged = desk.intent.isBridged)
    (hdirect : desk.intent.isBridged = false → desk.bridge = .idle) :
    (desk.beginExecution plan).InStep executed := by
  rw [beginExecution_eq, hplan]
  exact inStep_of_bridgeIf hdirect rfl rfl (List.mem_singleton.2 rfl)

/-- A call that fails touches the relay if its execution was handed out. -/
theorem InStep.failWith (h : desk.InStep executed) (error : FlowError) {bridged : Bool}
    (hstatus : desk.status.precedesExecution = !executed)
    (hbridged : bridged = (executed && desk.intent.isBridged)) :
    (desk.failWith error bridged).InStep executed := by
  rw [failWith_eq, hbridged]
  cases executed with
  | false => exact inStep_of_idle (h.idle_of_precedes hstatus) (List.mem_singleton.2 rfl)
  | true => exact inStep_of_bridgeIf h.idle_of_direct rfl rfl (List.mem_singleton.2 rfl)

theorem InStep.settles (h : desk.InStep executed) {hash : TxHash}
    {outcome : Except FlowError Bool} {settled : Settled}
    (hsettles : Settles desk hash outcome after settled)
    (hflight : ∀ flight, desk.inFlight = some flight →
      flight.bridged = desk.intent.isBridged ∧ executed = true)
    (hexecuted : after.status = .error → other = executed) : after.InStep other := by
  cases hsettles with
  | known | lost | strayed => exact h.congr rfl rfl rfl hexecuted
  | succeeded _ hsome =>
    rw [applySuccess_eq, (hflight _ hsome).1]
    exact inStep_of_bridgeIf h.idle_of_direct rfl rfl (List.mem_singleton.2 rfl)
  | failed _ hsome =>
    obtain ⟨hbridged, hhanded⟩ := hflight _ hsome
    rw [applyFailure_eq] at hexecuted
    have hother : other = true := (hexecuted rfl).trans hhanded
    rw [applyFailure_eq, hbridged, hother]
    exact inStep_of_bridgeIf h.idle_of_direct rfl rfl (List.mem_singleton.2 rfl)

end Desk

/-- A failure touches the relay as the plan says, once the execution is handed
out. -/
theorem OpenCall.bridged_of_failure {call : OpenCall} {move : Move} {error : FlowError}
    {bridged : Bool} (h : call.failure? move = some (error, bridged)) :
    bridged = (!call.stage.approves && call.attempt.plan.bridged) := by
  cases OpenCall.failure?_eq_some_iff.1 h with
  | approval hstage | execution hstage | receipt hstage =>
    rw [hstage]
    rfl

namespace Flow

/-- The current calls are for intents akin to the current one, and what is in
flight crosses exactly if its chain is bridged. -/
structure Tied (flow : Flow) : Prop where
  calls : ∀ call ∈ flow.calls, call.attempt.epoch = flow.desk.epoch →
    call.attempt.intent.Akin flow.desk.intent
  flight : ∀ flight, flow.desk.inFlight = some flight →
    flight.bridged = flow.desk.intent.isBridged

section Steps

variable {settings : Settings} {flow after : Flow} {move : Move} {effects : List Effect}
  {executed other : Bool}

theorem Tied.bridged_of_find? (h : flow.Tied) (hplanned : flow.Planned settings) {id : Nat}
    {call : OpenCall} (hcall : flow.find? id = some call)
    (hepoch : flow.desk.epoch = call.attempt.epoch) :
    call.attempt.plan.bridged = flow.desk.intent.isBridged := by
  have hmem := mem_of_find? hcall
  rw [Plan.bridged_of_ofIntent (hplanned call hmem)]
  exact (h.calls call hmem hepoch.symm).isBridged

theorem Step.tied (step : Step settings flow move after effects) (howned : flow.Owned)
    (hplanned : flow.Planned settings) (h : flow.Tied) : after.Tied where
  calls := by
    intro call hcall hcurrent
    rcases step.origin howned.numbered hcall with ⟨old, hold, -, hattempt⟩ | ⟨-, hintent⟩
    · rw [← hattempt] at hcurrent ⊢
      have hepoch : after.desk.epoch = flow.desk.epoch := by
        have hle := howned.epoch_le old hold
        have hmono := step.epoch_le
        omega
      exact (h.calls old hold (hcurrent.trans hepoch)).trans (step.akin hepoch).symm
    · rw [hintent]
      exact Intent.Akin.refl _
  flight := by
    intro flight hflight
    rcases step.akin_or_restarts with hakin | hrestarts
    · rw [hakin.isBridged]
      rcases step.inFlight_cases with hsame | ⟨-, hnone⟩ | ⟨_, _, _, hsettles⟩ |
        ⟨id, call, hash, hcall, -, hepoch, -, hsome⟩
      · exact h.flight flight (hsame.symm.trans hflight)
      · cases hnone.symm.trans hflight
      · obtain ⟨-, ⟨-, hsame⟩ | ⟨-, -, hnone⟩⟩ := settles_inFlight hsettles
        · exact h.flight flight (hsame.symm.trans hflight)
        · cases hnone.symm.trans hflight
      · obtain rfl := Option.some.inj (hsome.symm.trans hflight)
        exact h.bridged_of_find? hplanned hcall hepoch
    · cases hrestarts.inFlight.symm.trans hflight

theorem Step.inStep (step : Step settings flow move after effects) (howned : flow.Owned)
    (hplanned : flow.Planned settings) (htied : flow.Tied) (h : flow.desk.InStep executed)
    (hready : flow.desk.status.precedesExecution = true → executed = false)
    (hpending : flow.desk.status = .pending → executed = true)
    (hkept : after.desk.status = .error → after.desk.epoch = flow.desk.epoch → other = executed)
    (hnew : after.desk.status = .error → after.desk.epoch ≠ flow.desk.epoch → other = false) :
    after.desk.InStep other := by
  have hflight : ∀ flight, flow.desk.inFlight = some flight →
      flight.bridged = flow.desk.intent.isBridged ∧ executed = true :=
    fun flight hsome =>
      ⟨htied.flight flight hsome, hpending (howned.flight_pending flight hsome)⟩
  cases step with
  | declined | refused | passed | missed | approvalAccepted | superseded | abandoned =>
    exact h.congr rfl rfl rfl fun herror => hkept herror rfl
  | restarted =>
    apply Desk.inStep_of_idle
    · rw [Desk.typeIf_bridge, Desk.reset_eq]
    · rw [Desk.typeIf_reset_status]
      exact List.mem_cons_self
  | retyped =>
    exact h.typeIf _ (fun herror => hkept herror (Desk.typeIf_epoch _ _)) (akin_typeIf _ _)
  | unplannable =>
    rw [Desk.unplanned_eq] at hnew ⊢
    rw [hnew rfl (Nat.succ_ne_self _)]
    exact Desk.inStep_of_idle rfl (List.mem_singleton.2 rfl)
  | asked =>
    rw [Desk.enter_eq, Desk.taken_eq]
    exact Desk.inStep_of_idle rfl (List.mem_singleton.2 rfl)
  | executed _ _ hattempt hplan =>
    apply Desk.inStep_beginExecution
    · rw [Plan.bridged_of_ofIntent hplan, hattempt.2.2, Desk.taken_eq]
    · rw [Desk.taken_eq]
      exact fun _ => rfl
  | resumed _ _ _ _ hattempt hplan =>
    refine Desk.inStep_beginExecution ?_ h.idle_of_direct
    rw [Plan.bridged_of_ofIntent hplan, hattempt.2.2]
  | claimed hcall _ hepoch =>
    exact Desk.inStep_beginExecution (htied.bridged_of_find? hplanned hcall hepoch) h.idle_of_direct
  | reported hsettles | settled _ _ hsettles =>
    exact h.settles hsettles hflight fun herror => hkept herror (settles_inFlight hsettles).1
  | executionAccepted =>
    rw [Desk.recordFlight_eq] at hkept ⊢
    exact h.congr rfl rfl rfl fun herror => hkept herror rfl
  | @failed _ _ call error _ _ hcall hfailure hepoch =>
    obtain ⟨hexecuted, hprecedes⟩ : executed = (!call.stage.approves) ∧
        flow.desk.status.precedesExecution = call.stage.approves := by
      rcases howned.status_of_failure hcall hfailure hepoch with
        ⟨happroves, hstatus⟩ | ⟨happroves, hstatus, -⟩ <;> rw [happroves, hstatus]
      · exact ⟨hready (by rw [hstatus]; rfl), rfl⟩
      · exact ⟨hpending hstatus, rfl⟩
    have hother : other = executed := by
      rw [Desk.failWith_eq] at hkept
      exact hkept rfl rfl
    rw [hother]
    apply h.failWith
    · rw [hprecedes, hexecuted, Bool.not_not]
    · rw [OpenCall.bridged_of_failure hfailure, hexecuted,
        htied.bridged_of_find? hplanned hcall hepoch]
  | approved hcall hstage hepoch =>
    have happroving : flow.desk.status = .approving := howned.shows_of_find? hcall hepoch hstage
    have hidle := h.idle_of_precedes (by rw [happroving]; rfl)
    rw [Desk.enter_eq]
    exact Desk.inStep_of_idle hidle (List.mem_singleton.2 rfl)

end Steps

/-! ## Runs -/

section Runs

variable {settings : Settings} {past : List Turn} {turn : Turn}

/-- Where the status is not `pending`, no execution was handed out just now. -/
theorem executions_of_hands (h : turn.Hands settings)
    (hstatus : turn.after.desk.status ≠ .pending) :
    executions (past ++ [turn]) = executions past := by
  rw [executions_snoc]
  cases h with
  | nothing _ heffects =>
    rw [handOuts_eq_nil heffects]
    exact List.append_nil _
  | approval _ hhands _ hrequest =>
    rw [hhands]
    simp [hrequest]
  | execution _ _ _ _ _ _ _ hpending | carriedOn _ _ _ _ _ _ _ hpending =>
    exact absurd hpending hstatus

/-- What is pending was handed out, just now or before. -/
theorem mem_executions_of_hands (h : turn.Hands settings)
    (hpast : turn.before.desk.status = .pending → turn.before.desk.epoch ∈ executions past)
    (hstatus : turn.after.desk.status = .pending) :
    turn.after.desk.epoch ∈ executions (past ++ [turn]) := by
  rw [executions_snoc]
  cases h with
  | nothing _ _ _ hprogress =>
    obtain ⟨hepoch, hbefore, hprecedes⟩ := hprogress (by rw [hstatus]; rfl)
    rw [hstatus] at hprecedes
    have hpending : turn.before.desk.status = .pending := by
      cases hold : turn.before.desk.status with
      | pending => rfl
      | approving | approved =>
        rw [hold] at hprecedes
        cases hprecedes
      | idle | success | error =>
        rw [hold] at hbefore
        cases hbefore
    rw [hepoch]
    exact List.mem_append_left _ (hpast hpending)
  | approval _ _ _ _ _ _ happroving => cases happroving.symm.trans hstatus
  | execution _ hhands _ hrequest _ hepoch =>
    rw [hhands, hepoch]
    simp [hrequest]
  | carriedOn _ hhands _ hrequest hattempt hepoch =>
    rw [hhands, hepoch, ← hattempt]
    simp [hrequest]

structure Lockstep (settings : Settings) (past : List Turn) (flow : Flow) : Prop where
  counted : Counted settings past flow
  tied : flow.Tied
  pending : flow.desk.status = .pending → flow.desk.epoch ∈ executions past
  inStep : flow.desk.InStep (decide (flow.desk.epoch ∈ executions past))

theorem Lockstep.snoc {flow : Flow} (h : Lockstep settings past flow) (move : Move) :
    Lockstep settings (past ++ [flow.turn settings move]) (flow.step settings move).1 := by
  have hstep := steps settings flow move
  have howned := h.counted.owned
  have hplanned := h.counted.planned
  have hhands : (flow.turn settings move).Hands settings := hstep.hands howned hplanned
  have ne_pending : (flow.step settings move).1.desk.status = .error →
      (flow.step settings move).1.desk.status ≠ .pending := by
    intro herror hpending
    cases herror.symm.trans hpending
  refine ⟨h.counted.snoc hhands (hstep.owned howned) (hstep.planned howned.numbered hplanned),
    hstep.tied howned hplanned h.tied, mem_executions_of_hands hhands h.pending, ?_⟩
  apply hstep.inStep howned hplanned h.tied h.inStep
  · intro hprecedes
    apply decide_eq_false
    apply (h.counted.progress _).2 hprecedes
    exact Status.isInProgress_of_precedesExecution hprecedes
  · exact fun hpending => decide_eq_true (h.pending hpending)
  · intro herror hepoch
    rw [executions_of_hands hhands (ne_pending herror), hepoch]
  · intro herror hepoch
    rw [executions_of_hands hhands (ne_pending herror)]
    -- A new epoch is above every submission so far.
    apply decide_eq_false
    intro hmem
    have hle := h.counted.accepted_le _ (h.counted.executions_accepted _ hmem)
    have hmono := hstep.epoch_le
    omega

theorem lockstep_history (settings : Settings) (moves : List Move) :
    Lockstep settings (({} : Flow).history settings moves)
      (({} : Flow).reached settings moves) := by
  refine history_induction (fun past flow move h => h.snoc move) ?_ moves
  exact
    { counted := counted_history settings []
      tied := ⟨fun _ hcall => (nomatch hcall), fun _ hflight => (nomatch hflight)⟩
      pending := fun hstatus => nomatch hstatus
      inStep := List.mem_singleton.2 rfl }

/-- The bridge status tells of the current submission what the status tells, and
only where there is something to cross: it is under way exactly while an
execution for a bridged chain is pending, it ends as the execution ends, and it
says nothing of an approval or of a plan that failed. -/
theorem bridge_in_lockstep (settings : Settings) (moves : List Move) :
    let turns := ({} : Flow).history settings moves
    let desk := (({} : Flow).reached settings moves).desk
    (desk.bridge = .bridging ↔ desk.status = .pending ∧ desk.intent.isBridged = true) ∧
    desk.bridge ≠ .confirming ∧ desk.bridge ≠ .swapping ∧
    (desk.status = .approving ∨ desk.status = .approved → desk.bridge = .idle) ∧
    (desk.status = .success →
      desk.bridge = if desk.intent.isBridged then .complete else .idle) ∧
    (desk.status = .error →
      desk.bridge = if desk.intent.isBridged ∧ desk.epoch ∈ executions turns then .failed
        else .idle) ∧
    (desk.intent.chain = Chain.settlement → desk.bridge = .idle) ∧
    (∀ turn ∈ turns, ¬turn.after.desk.intent.Akin turn.before.desk.intent →
      turn.after.desk.bridge = .idle) := by
  intro turns desk
  have h : desk.InStep (decide (desk.epoch ∈ executions turns)) :=
    (lockstep_history settings moves).inStep
  refine ⟨h.bridging_iff, h.ne_later.1, h.ne_later.2, ?_, ?_, ?_, ?_, ?_⟩
  · intro hstatus
    apply h.idle_of_precedes
    rcases hstatus with hstatus | hstatus <;> rw [hstatus] <;> rfl
  · intro hstatus
    exact h.eq_of_bridges (by rw [hstatus]; rfl)
  · intro hstatus
    rw [h.eq_of_bridges (by rw [hstatus]; rfl), ite_and]
    simp only [decide_eq_true_eq]
  · intro hchain
    apply h.idle_of_direct
    rw [Intent.isBridged, hchain]
    rfl
  · intro turn hturn hother
    rcases (step_of_mem_history hturn).2.akin_or_restarts with hakin | hrestarts
    · exact absurd hakin hother
    · exact hrestarts.bridge

/-- A gift that crosses is accepted by the executor. -/
def crossingRun : List Move :=
  [.edit none { chainId := some 1, token := some "ETH", amount := some "1" },
    .submit {} (some default), .submitted 0 (.ok trialHash)]

theorem bridge_in_lockstep_of_crossingRun :
    let deskAfter := fun moves => (({} : Flow).reached bridgeSettings (crossingRun ++ moves)).desk
    ((deskAfter []).status = .pending ∧ (deskAfter []).bridge = .bridging) ∧
    ((deskAfter [.mined 0 (.ok true)]).status = .success ∧
      (deskAfter [.mined 0 (.ok true)]).bridge = .complete) ∧
    ((deskAfter [.mined 0 (.ok false)]).status = .error ∧
      (deskAfter [.mined 0 (.ok false)]).bridge = .failed) ∧
    ((deskAfter [.edit none { chainId := some 8453 }]).intent.chain = Chain.settlement ∧
      (deskAfter [.edit none { chainId := some 8453 }]).bridge = .idle) := by
  intro deskAfter
  have lockstep := fun moves => bridge_in_lockstep bridgeSettings (crossingRun ++ moves)
  refine ⟨?_, ?_, ?_, ?_⟩
  · have hstatus : (deskAfter []).status = .pending := by decide +kernel
    have hbridged : (deskAfter []).intent.isBridged = true := by decide +kernel
    exact ⟨hstatus, (lockstep []).1.2 ⟨hstatus, hbridged⟩⟩
  · have hstatus : (deskAfter [.mined 0 (.ok true)]).status = .success := by decide +kernel
    have hbridged : (deskAfter [.mined 0 (.ok true)]).intent.isBridged = true := by decide +kernel
    obtain ⟨-, -, -, -, hsuccess, -⟩ := lockstep [.mined 0 (.ok true)]
    exact ⟨hstatus, (hsuccess hstatus).trans (if_pos hbridged)⟩
  · have hstatus : (deskAfter [.mined 0 (.ok false)]).status = .error := by decide +kernel
    obtain ⟨-, -, -, -, -, herror, -⟩ := lockstep [.mined 0 (.ok false)]
    refine ⟨hstatus, (herror hstatus).trans (if_pos ?_)⟩
    exact ⟨by decide +kernel, by decide +kernel⟩
  · have hchain : (deskAfter [.edit none { chainId := some 8453 }]).intent.chain =
        Chain.settlement := by decide +kernel
    obtain ⟨-, -, -, -, -, -, hsettlement, -⟩ := lockstep [.edit none { chainId := some 8453 }]
    exact ⟨hchain, hsettlement hchain⟩

end Runs

end Flow

end DonationFlow
