import DonationFlow.Proofs.Flow.Acceptance

/-!
# Coherent desks

The fields of a desk belong together: the intent is one of the catalog and its
units are what its text writes, an error is kept exactly while the status says
so, nothing is left to be given after a success, and what waits for an approval
can be planned.  Each operation touches only some of these fields, so that each
clause leans on the others; `Desk.Coherent` is all of them at once.  Main
statement: `coherent_at_all_times`.
-/

namespace DonationFlow

theorem Amount.toUnits_empty (decimals : UInt8) : toUnits "" decimals = Word.zero := rfl

namespace Desk

/-- The intent is that of a token's contract, and there is a plan for it. -/
structure Approvable (settings : Settings) (intent : Intent) : Prop where
  native : intent.token.isNative = false
  planned : ∃ plan, Plan.ofIntent intent settings.campaign settings.contracts = .ok plan

structure Coherent (settings : Settings) (desk : Desk) : Prop where
  listed : desk.intent.Listed
  units : desk.intent.units = Amount.toUnits desk.intent.text desk.intent.token.decimals
  error : desk.lastError.isSome = true ↔ desk.status = .error
  cleared : desk.status = .success → desk.intent.clearAmount = desk.intent
  approvable : desk.status.precedesExecution = true → Approvable settings desk.intent

variable {settings : Settings} {desk after : Desk}

theorem Approvable.of_akin {intent other : Intent} (h : Approvable settings intent)
    (hakin : other.Akin intent) : Approvable settings other where
  native := by
    rw [hakin.token]
    exact h.native
  planned := by
    obtain ⟨plan, hplan⟩ := h.planned
    exact Plan.exists_ofIntent_of_akin hplan h.native hakin

/-- What needs an approval is the token of a contract. -/
theorem approvable_of_approvalFor {cache : ReadCache} {account : Address} {intent : Intent}
    {approval : CallRequest} {plan : Plan}
    (happroval : approvalFor settings cache account intent = some approval)
    (hplan : Plan.ofIntent intent settings.campaign settings.contracts = .ok plan) :
    Approvable settings intent := by
  obtain ⟨hneeds, -⟩ := approvalFor_eq_some_iff.1 happroval
  exact ⟨(needsApprovalFor_cases hneeds).1, plan, hplan⟩

theorem Coherent.lastError_eq_none (h : desk.Coherent settings) (hstatus : desk.status ≠ .error) :
    desk.lastError = none := by
  cases hlast : desk.lastError with
  | none => rfl
  | some error => exact absurd (h.error.1 (by rw [hlast]; rfl)) hstatus

/-- An operation that leaves the intent alone has to answer for the error, the
success and the approval only. -/
theorem Coherent.of_intent_eq (h : desk.Coherent settings) (hintent : after.intent = desk.intent)
    (herror : after.lastError.isSome = true ↔ after.status = .error)
    (hsuccess : after.status = .success → desk.status = .success)
    (happrovable : after.status.precedesExecution = true → Approvable settings desk.intent) :
    after.Coherent settings where
  listed := by
    rw [hintent]
    exact h.listed
  units := by
    rw [hintent]
    exact h.units
  error := herror
  cleared := by
    rw [hintent]
    exact fun hstatus => h.cleared (hsuccess hstatus)
  approvable := by
    rw [hintent]
    exact happrovable

theorem Coherent.unplanned (h : desk.Coherent settings) (error : FlowError) :
    (desk.unplanned error).Coherent settings := by
  rw [unplanned_eq]
  exact h.of_intent_eq rfl (by simp) (fun hstatus => nomatch hstatus)
    (fun hstatus => nomatch hstatus)

theorem Coherent.asked (h : desk.Coherent settings)
    (happrovable : Approvable settings desk.intent) :
    (desk.taken.enter .approving).Coherent settings := by
  rw [enter_eq, taken_eq]
  exact h.of_intent_eq rfl (by simp) (fun hstatus => nomatch hstatus) (fun _ => happrovable)

theorem Coherent.executed (h : desk.Coherent settings) (plan : Plan) :
    (desk.taken.beginExecution plan).Coherent settings := by
  rw [beginExecution_eq, taken_eq]
  exact h.of_intent_eq rfl (by simp) (fun hstatus => nomatch hstatus)
    (fun hstatus => nomatch hstatus)

theorem Coherent.beginExecution (h : desk.Coherent settings) (hstatus : desk.status = .approved)
    (plan : Plan) : (desk.beginExecution plan).Coherent settings := by
  have hnone := h.lastError_eq_none (by simp [hstatus])
  rw [beginExecution_eq]
  exact h.of_intent_eq rfl (by simp [hnone]) (fun hstatus => nomatch hstatus)
    (fun hstatus => nomatch hstatus)

theorem Coherent.enter_approved (h : desk.Coherent settings) (hstatus : desk.status = .approving) :
    (desk.enter .approved).Coherent settings := by
  have hnone := h.lastError_eq_none (by simp [hstatus])
  have happrovable := h.approvable (by rw [hstatus]; rfl)
  rw [enter_eq]
  exact h.of_intent_eq rfl (by simp [hnone]) (fun hstatus => nomatch hstatus)
    (fun _ => happrovable)

theorem Coherent.failWith (h : desk.Coherent settings) (error : FlowError) (bridged : Bool) :
    (desk.failWith error bridged).Coherent settings := by
  rw [failWith_eq]
  exact h.of_intent_eq rfl (by simp) (fun hstatus => nomatch hstatus)
    (fun hstatus => nomatch hstatus)

theorem Coherent.applyFailure (h : desk.Coherent settings) (flight : InFlight) (hash : TxHash)
    (error : FlowError) : (desk.applyFailure flight hash error).Coherent settings := by
  rw [applyFailure_eq]
  exact h.of_intent_eq rfl (by simp) (fun hstatus => nomatch hstatus)
    (fun hstatus => nomatch hstatus)

theorem Coherent.applySuccess (h : desk.Coherent settings) (hstatus : desk.status = .pending)
    (flight : InFlight) (hash : TxHash) : (desk.applySuccess flight hash).Coherent settings := by
  have hnone := h.lastError_eq_none (by simp [hstatus])
  rw [applySuccess_eq]
  exact
    { listed := h.listed.of_akin desk.intent.akin_clearAmount
      units := (Amount.toUnits_empty _).symm
      error := by simp [hnone]
      cleared := fun _ => rfl
      approvable := fun hprecedes => nomatch hprecedes }

theorem Coherent.settles (h : desk.Coherent settings) {hash : TxHash}
    {outcome : Except FlowError Bool} {settled : Settled}
    (hsettles : Settles desk hash outcome after settled)
    (hpending : ∀ flight, desk.inFlight = some flight → desk.status = .pending) :
    after.Coherent settings := by
  cases hsettles with
  | known | lost => exact h
  | strayed => exact h.of_intent_eq rfl h.error id h.approvable
  | succeeded _ hflight => exact h.applySuccess (hpending _ hflight) _ _
  | failed => exact h.applyFailure _ _ _

/-- Typing an amount leaves a final status, and its error with it. -/
theorem Coherent.typeIf (h : desk.Coherent settings) (amount : Option String) :
    (desk.typeIf amount).Coherent settings := by
  cases amount with
  | none => exact h
  | some text =>
    have hakin := desk.intent.akin_withAmount text
    rw [Desk.typeIf, typeAmount_eq]
    cases hterminal : desk.status.isTerminal with
    | true =>
      rw [Status.afterTyping, hterminal, if_pos rfl, if_pos rfl]
      exact
        { listed := h.listed.of_akin hakin
          units := rfl
          error := by simp
          cleared := by rintro ⟨⟩
          approvable := by rintro ⟨⟩ }
    | false =>
      rw [Status.afterTyping, hterminal, if_neg Bool.false_ne_true, if_neg Bool.false_ne_true]
      refine ⟨h.listed.of_akin hakin, rfl, h.error, fun hstatus => ?_, fun hprecedes => ?_⟩
      · have hsuccess : desk.status = .success := hstatus
        rw [hsuccess] at hterminal
        cases hterminal
      · exact (h.approvable hprecedes).of_akin hakin

theorem Coherent.restarted (h : desk.Coherent settings) {edit : Edit} {action : Action}
    {chain : Chain} {token : Token}
    (htarget : edit.target desk.intent = .ok (action, chain, token)) :
    ((desk.reset (Intent.blank action chain token)).typeIf edit.amount).Coherent settings := by
  apply Coherent.typeIf
  rw [reset_eq]
  exact
    { listed := Edit.listed_of_target htarget h.listed
      units := (Amount.toUnits_empty _).symm
      error := by simp
      cleared := fun hstatus => nomatch hstatus
      approvable := fun hprecedes => nomatch hprecedes }

end Desk

namespace Flow

variable {settings : Settings} {flow after : Flow} {move : Move} {effects : List Effect}

theorem Step.coherent (step : Step settings flow move after effects) (howned : flow.Owned)
    (h : flow.desk.Coherent settings) : after.desk.Coherent settings := by
  cases step with
  | declined | refused | passed | missed | approvalAccepted | superseded | abandoned => exact h
  | restarted htarget => exact h.restarted htarget
  | retyped => exact h.typeIf _
  | unplannable => exact h.unplanned _
  | asked _ _ hattempt hplan happroval =>
    obtain ⟨-, -, hintent⟩ := hattempt
    rw [hintent] at happroval hplan
    exact h.asked (Desk.approvable_of_approvalFor happroval hplan)
  | executed => exact h.executed _
  | resumed hstatus | claimed _ _ _ hstatus => exact h.beginExecution hstatus _
  | reported hsettles | settled _ _ hsettles => exact h.settles hsettles howned.flight_pending
  | executionAccepted =>
    rw [Desk.recordFlight_eq]
    exact h.of_intent_eq rfl h.error id h.approvable
  | failed => exact h.failWith _ _
  | approved hcall hstage hepoch =>
    exact h.enter_approved (howned.shows_of_find? hcall hepoch hstage)

theorem coherent_start (settings : Settings) : ({} : Desk).Coherent settings where
  listed := Intent.listed_default
  units := rfl
  error := by simp
  cleared := fun hstatus => nomatch hstatus
  approvable := fun hprecedes => nomatch hprecedes

theorem coherent_reached (settings : Settings) (moves : List Move) :
    (({} : Flow).reached settings moves).desk.Coherent settings := by
  apply owned_start.reached_induction (P := fun flow => flow.desk.Coherent settings)
  · exact coherent_start settings
  · intro turn hturn howned h
    exact (step_of_mem_history hturn).2.coherent howned h

/-- Whatever the order of edits, submissions, ticks, reports and answers, and card
funding is one of the edits: the intent is one of the catalog and its units are
what its text writes, there is an error exactly if the status says so, something
is in flight only while the status is `pending`, a success leaves a blank amount,
and what waits for an approval is the token of a contract and can be planned. -/
theorem coherent_at_all_times (settings : Settings) (moves : List Move) :
    let desk := (({} : Flow).reached settings moves).desk
    desk.intent.chain ∈ Chain.all ∧
    desk.intent.token ∈ Token.listed desk.intent.chain.id ∧
    desk.intent.units = Amount.toUnits desk.intent.text desk.intent.token.decimals ∧
    (desk.lastError.isSome = true ↔ desk.status = .error) ∧
    (desk.inFlight ≠ none → desk.status = .pending) ∧
    (desk.status = .success → desk.intent.text = "" ∧ desk.intent.units = Word.zero) ∧
    (desk.status = .approving ∨ desk.status = .approved →
      desk.intent.token.isNative = false ∧
      (∃ contract, desk.intent.token.address = some contract) ∧
      ∃ plan, Plan.ofIntent desk.intent settings.campaign settings.contracts = .ok plan) := by
  intro desk
  have h : desk.Coherent settings := coherent_reached settings moves
  refine ⟨h.listed.chain, h.listed.token, h.units, h.error, ?_, ?_, ?_⟩
  · intro hflying
    obtain ⟨flight, hflight⟩ := Option.ne_none_iff_exists'.1 hflying
    exact (owned_reached settings moves).flight_pending flight hflight
  · intro hstatus
    rw [← h.cleared hstatus]
    exact ⟨rfl, rfl⟩
  · intro hstatus
    have hprecedes : desk.status.precedesExecution = true := by
      rcases hstatus with hstatus | hstatus <;> rw [hstatus] <;> rfl
    obtain ⟨hnative, hplanned⟩ := h.approvable hprecedes
    exact ⟨hnative, h.listed.exists_contract hnative, hplanned⟩

/-- An approval is waited for, an execution is in flight, and it ends well or not. -/
theorem coherent_at_all_times_of_acceptedRun :
    let deskAfter := fun moves => (({} : Flow).reached trialSettings moves).desk
    let asked := deskAfter (raceRun.take 2)
    let flying := deskAfter acceptedRun
    let done := deskAfter (acceptedRun ++ [.mined 0 (.ok true)])
    let failed := deskAfter (acceptedRun ++ [.mined 0 (.ok false)])
    (asked.status = .approving ∧ asked.intent.token.isNative = false ∧
      ∃ plan, Plan.ofIntent asked.intent trialSettings.campaign trialSettings.contracts =
        .ok plan) ∧
    (flying.inFlight ≠ none ∧ flying.status = .pending) ∧
    (done.status = .success ∧ done.intent.text = "" ∧ done.intent.units = Word.zero) ∧
    (failed.status = .error ∧ failed.lastError.isSome = true) := by
  intro deskAfter asked flying done failed
  have coherent := coherent_at_all_times trialSettings
  refine ⟨?_, ?_, ?_, ?_⟩
  · have hstatus : asked.status = .approving := by decide +kernel
    obtain ⟨-, -, -, -, -, -, hasked⟩ := coherent (raceRun.take 2)
    obtain ⟨hnative, -, hplanned⟩ := hasked (Or.inl hstatus)
    exact ⟨hstatus, hnative, hplanned⟩
  · have hflying : flying.inFlight ≠ none := by decide +kernel
    obtain ⟨-, -, -, -, hpending, -⟩ := coherent acceptedRun
    exact ⟨hflying, hpending hflying⟩
  · have hstatus : done.status = .success := by decide +kernel
    obtain ⟨-, -, -, -, -, hcleared, -⟩ := coherent (acceptedRun ++ [.mined 0 (.ok true)])
    exact ⟨hstatus, hcleared hstatus⟩
  · have hstatus : failed.status = .error := by decide +kernel
    obtain ⟨-, -, -, herror, -⟩ := coherent (acceptedRun ++ [.mined 0 (.ok false)])
    exact ⟨hstatus, herror.2 hstatus⟩

end Flow

end DonationFlow
