import DonationFlow.Flow
import DonationFlow.Proofs.Desk.Settling

/-!
# The ways a step can go

A step of the flow goes one of nineteen ways.  `Step` lists them with their
guards, and `steps` says that the list is complete, so that what a step keeps
is shown one way at a time and the functions behind it are never opened again.
-/

namespace DonationFlow

/-- The call that a move belongs to, if it is a move of a call under way. -/
def Move.call? : Move → Option Nat
  | .submitted id _ | .mined id _ | .proceed id | .abandon id => some id
  | _ => none

/-- Whether a call at the stage waits for the move. -/
def Stage.awaits : Stage → Move → Bool
  | .approving, .submitted .. | .executing, .submitted .. => true
  | .approvalSent _, .mined .. | .sent _, .mined .. => true
  | .approved, .proceed _ => true
  | _, _ => false

/-- The failure that a move brings to the call, with whether it touches the
relay. -/
def OpenCall.failure? (call : OpenCall) : Move → Option (FlowError × Bool)
  | .submitted _ (.error error) =>
    match call.stage with
    | .approving => some (error, false)
    | .executing => some (error, call.attempt.plan.bridged)
    | _ => none
  | .mined _ outcome =>
    match call.stage, outcome with
    | .approvalSent _, .error error => some (error, false)
    | .approvalSent hash, .ok false => some (.notMined hash.text, false)
    | _, _ => none
  | _ => none

/-- The ways a call fails: the executor refuses its approval or its execution, or
the receipt of the approval does not come or says that it was not confirmed. -/
inductive OpenCall.FailsBy (call : OpenCall) : Move → FlowError → Bool → Prop
  | approval {id : Nat} {error : FlowError} (hstage : call.stage = .approving) :
      FailsBy call (.submitted id (.error error)) error false
  | execution {id : Nat} {error : FlowError} (hstage : call.stage = .executing) :
      FailsBy call (.submitted id (.error error)) error call.attempt.plan.bridged
  | receipt {id : Nat} {hash : TxHash} {outcome : Except FlowError Bool}
      (hstage : call.stage = .approvalSent hash) (houtcome : outcome ≠ .ok true) :
      FailsBy call (.mined id outcome) (Desk.failureOf hash outcome) false

theorem OpenCall.failure?_eq_some_iff {call : OpenCall} {move : Move} {error : FlowError}
    {bridged : Bool} :
    call.failure? move = some (error, bridged) ↔ call.FailsBy move error bridged := by
  constructor
  · intro h
    unfold failure? at h
    split at h
    · split at h
      · rename_i hstage
        cases h
        exact .approval hstage
      · rename_i hstage
        cases h
        exact .execution hstage
      · cases h
    · split at h
      · rename_i hstage
        cases h
        exact .receipt hstage (by simp)
      · rename_i hstage
        cases h
        exact .receipt hstage (by simp)
      · cases h
    · cases h
  · intro h
    cases h with
    | approval hstage | execution hstage => rw [failure?, hstage]
    | @receipt id hash outcome hstage houtcome =>
      obtain error | _ | _ := outcome
      · simp only [failure?, hstage, Desk.failureOf]
      · simp only [failure?, hstage, Desk.failureOf]
      · exact absurd rfl houtcome

namespace Flow

/-- The reads that follow an edit. -/
def editRereads (account : Option Address) (startsOver : Bool) (intent : Intent) : List Effect :=
  match account with
  | some owner => if startsOver then [.reread owner intent] else []
  | none => []

/-- The reads that follow a mined approval. -/
def approvalRereads (settings : Settings) (attempt : Attempt) : List Effect :=
  match settings.contracts.spender? attempt.intent.chain with
  | some spender =>
    [.rereadAllowance attempt.intent.chain.id attempt.intent.token attempt.account spender]
  | none => []

inductive Step (settings : Settings) (flow : Flow) : Move → Flow → List Effect → Prop
  | declined {account edit error} (hedit : flow.desk.edit edit = .error error) :
      Step settings flow (.edit account edit) flow []
  | restarted {account edit action chain token}
      (htarget : edit.target flow.desk.intent = .ok (action, chain, token))
      (hdiffers : Desk.differs flow.desk.intent action chain token = true)
      (hedit : flow.desk.edit edit =
        .ok ((flow.desk.reset (Intent.blank action chain token)).typeIf edit.amount, true)) :
      Step settings flow (.edit account edit)
        { flow with desk := (flow.desk.reset (Intent.blank action chain token)).typeIf edit.amount }
        (editRereads account true
          ((flow.desk.reset (Intent.blank action chain token)).typeIf edit.amount).intent)
  | retyped {account edit action chain token}
      (htarget : edit.target flow.desk.intent = .ok (action, chain, token))
      (hdiffers : Desk.differs flow.desk.intent action chain token = false)
      (hedit : flow.desk.edit edit = .ok (flow.desk.typeIf edit.amount, false)) :
      Step settings flow (.edit account edit) { flow with desk := flow.desk.typeIf edit.amount } []
  | refused {cache account error}
      (hsubmit : flow.desk.submit settings cache account = (flow.desk, .error error)) :
      Step settings flow (.submit cache account) { flow with next := flow.next + 1 }
        [.answer flow.next (.failed error)]
  | unplannable {cache account error}
      (hstatus : flow.desk.status.isInProgress = false)
      (hsubmit : flow.desk.submit settings cache account =
        (flow.desk.unplanned error, .error error)) :
      Step settings flow (.submit cache account)
        { flow with
          desk := flow.desk.unplanned error
          next := flow.next + 1 }
        [.answer flow.next (.failed error)]
  | asked {cache account attempt approval}
      (hstatus : flow.desk.status.isInProgress = false)
      (hunits : flow.desk.intent.units.isZero = false)
      (hattempt : attempt.epoch = flow.desk.epoch + 1 ∧ attempt.account = account ∧
        attempt.intent = flow.desk.intent)
      (hplan : Plan.ofIntent attempt.intent settings.campaign settings.contracts =
        .ok attempt.plan)
      (happroval : Desk.approvalFor settings cache account attempt.intent = some approval)
      (hsubmit : flow.desk.submit settings cache (some account) =
        (flow.desk.taken.enter .approving, .ok (attempt, some approval))) :
      Step settings flow (.submit cache (some account))
        ({ flow with desk := flow.desk.taken.enter .approving }.push attempt .approving)
        [.handOut flow.next attempt.intent.chain.id approval]
  | executed {cache account attempt}
      (hstatus : flow.desk.status.isInProgress = false)
      (hunits : flow.desk.intent.units.isZero = false)
      (hattempt : attempt.epoch = flow.desk.epoch + 1 ∧ attempt.account = account ∧
        attempt.intent = flow.desk.intent)
      (hplan : Plan.ofIntent attempt.intent settings.campaign settings.contracts =
        .ok attempt.plan)
      (happroval : Desk.approvalFor settings cache account attempt.intent = none)
      (hsubmit : flow.desk.submit settings cache (some account) =
        (flow.desk.taken.beginExecution attempt.plan, .ok (attempt, none))) :
      Step settings flow (.submit cache (some account))
        ({ flow with desk := flow.desk.taken.beginExecution attempt.plan }.push attempt .executing)
        [handOutExecution flow.next attempt]
  | passed {cache account answer}
      (hresume : flow.desk.resume settings cache account = .ok none ∧ answer = .nothing ∨
        ∃ error, flow.desk.resume settings cache account = .error error ∧ answer = .failed error) :
      Step settings flow (.tick cache account) { flow with next := flow.next + 1 }
        [.answer flow.next answer]
  | resumed {cache account attempt}
      (hstatus : flow.desk.status = .approved) (hflight : flow.desk.inFlight = none)
      (hunits : flow.desk.intent.units.isZero = false)
      (hneeds : flow.desk.needsApproval settings cache (some account) = false)
      (hattempt : attempt.epoch = flow.desk.epoch ∧ attempt.account = account ∧
        attempt.intent = flow.desk.intent)
      (hplan : Plan.ofIntent attempt.intent settings.campaign settings.contracts =
        .ok attempt.plan) :
      Step settings flow (.tick cache (some account))
        ({ flow with desk := flow.desk.beginExecution attempt.plan }.push attempt .executing)
        [handOutExecution flow.next attempt]
  | reported {hash confirmed after settled}
      (hsettles : Desk.Settles flow.desk hash (.ok confirmed) after settled) :
      Step settings flow (.report hash confirmed) { flow with desk := after } (refreshes settled)
  | missed {move id} (hmove : move.call? = some id)
      (hmissed : ∀ call, flow.find? id = some call → call.stage.awaits move = false) :
      Step settings flow move flow []
  | approvalAccepted {id call hash} (hcall : flow.find? id = some call)
      (hstage : call.stage = .approving) :
      Step settings flow (.submitted id (.ok hash)) (flow.advance id (.approvalSent hash))
        [.awaitReceipt id call.attempt.intent.chain.id hash]
  | executionAccepted {id call hash} (hcall : flow.find? id = some call)
      (hstage : call.stage = .executing) :
      Step settings flow (.submitted id (.ok hash))
        ({ flow with desk := flow.desk.recordFlight settings call.attempt hash }.advance id
          (.sent hash))
        [.awaitReceipt id call.attempt.intent.chain.id hash]
  | failed {move id call error bridged} (hmove : move.call? = some id)
      (hcall : flow.find? id = some call) (hfailure : call.failure? move = some (error, bridged))
      (hepoch : flow.desk.epoch = call.attempt.epoch) :
      Step settings flow move ({ flow with desk := flow.desk.failWith error bridged }.drop id)
        [.answer id (.failed error)]
  | superseded {move id call} (hmove : move.call? = some id) (hcall : flow.find? id = some call)
      (hawaits : call.stage.awaits move = true) (hstage : ∀ hash, call.stage ≠ .sent hash)
      (haccepted : ∀ hash, move ≠ .submitted id (.ok hash))
      (hreason : flow.desk.epoch ≠ call.attempt.epoch ∨
        call.stage = .approved ∧ flow.desk.status ≠ .approved) :
      Step settings flow move (flow.drop id) [.answer id .superseded]
  | approved {id call hash} (hcall : flow.find? id = some call)
      (hstage : call.stage = .approvalSent hash) (hepoch : flow.desk.epoch = call.attempt.epoch) :
      Step settings flow (.mined id (.ok true))
        ({ flow with desk := flow.desk.enter .approved }.advance id .approved)
        (.ready id :: approvalRereads settings call.attempt)
  | claimed {id call} (hcall : flow.find? id = some call) (hstage : call.stage = .approved)
      (hepoch : flow.desk.epoch = call.attempt.epoch) (hstatus : flow.desk.status = .approved) :
      Step settings flow (.proceed id)
        ({ flow with desk := flow.desk.beginExecution call.attempt.plan }.advance id .executing)
        [handOutExecution id call.attempt]
  | settled {id call hash outcome after result} (hcall : flow.find? id = some call)
      (hstage : call.stage = .sent hash)
      (hsettles : Desk.Settles flow.desk hash outcome after result) :
      Step settings flow (.mined id outcome) ({ flow with desk := after }.drop id)
        (refreshes result ++ [.answer id (answerOf hash result)])
  | abandoned (id : Nat) : Step settings flow (.abandon id) (flow.drop id) []

variable (settings : Settings) (flow : Flow)

theorem steps_edit (account : Option Address) (edit : Edit) :
    Step settings flow (.edit account edit) (flow.step settings (.edit account edit)).1
      (flow.step settings (.edit account edit)).2 := by
  simp only [step, Flow.edit]
  cases hedit : flow.desk.edit edit with
  | error error => exact .declined hedit
  | ok result =>
    obtain ⟨entered, startsOver⟩ := result
    obtain ⟨action, chain, token, htarget, hdiffers, rfl⟩ := Desk.edit_eq_ok_iff.1 hedit
    cases startsOver
    · cases account <;> exact .retyped htarget hdiffers hedit
    · exact .restarted htarget hdiffers hedit

theorem steps_submit (cache : ReadCache) (account : Option Address) :
    Step settings flow (.submit cache account) (flow.step settings (.submit cache account)).1
      (flow.step settings (.submit cache account)).2 := by
  simp only [step, Flow.submit]
  cases account with
  | none => exact .refused rfl
  | some account =>
    cases hstatus : flow.desk.status.isInProgress with
    | true =>
      have hsubmit : flow.desk.submit settings cache (some account) =
          (flow.desk, .error .busy) := by simp [Desk.submit, hstatus]
      rw [hsubmit]
      exact .refused hsubmit
    | false =>
    cases hunits : flow.desk.intent.units.isZero with
    | true =>
      have hsubmit : flow.desk.submit settings cache (some account) =
          (flow.desk, .error .zeroAmount) := by simp [Desk.submit, hstatus, hunits]
      rw [hsubmit]
      exact .refused hsubmit
    | false =>
    have hintent : flow.desk.taken.intent = flow.desk.intent := by rw [Desk.taken_eq]
    have hepoch : flow.desk.taken.epoch = flow.desk.epoch + 1 := by rw [Desk.taken_eq]
    cases hplan : Plan.ofIntent flow.desk.taken.intent settings.campaign settings.contracts with
    | error error =>
      have hsubmit : flow.desk.submit settings cache (some account) =
          (flow.desk.unplanned error, .error error) := by
        rw [Desk.submit_eq_taken settings cache account hstatus hunits, hplan]
      rw [hsubmit]
      exact .unplannable hstatus hsubmit
    | ok plan =>
    obtain ⟨attempt, hattempt⟩ : ∃ attempt : Attempt,
        attempt = ⟨flow.desk.taken.epoch, account, flow.desk.taken.intent, plan⟩ := ⟨_, rfl⟩
    have horigin : attempt.epoch = flow.desk.epoch + 1 ∧ attempt.account = account ∧
        attempt.intent = flow.desk.intent := by
      rw [hattempt]
      exact ⟨hepoch, rfl, hintent⟩
    have hplanned : Plan.ofIntent attempt.intent settings.campaign settings.contracts =
        .ok attempt.plan := by
      rw [hattempt]
      exact hplan
    cases happroval : Desk.approvalFor settings cache account attempt.intent with
    | some approval =>
      have hsubmit : flow.desk.submit settings cache (some account) =
          (flow.desk.taken.enter .approving, .ok (attempt, some approval)) := by
        rw [hattempt] at happroval ⊢
        rw [Desk.submit_eq_taken settings cache account hstatus hunits, hplan]
        simp only [happroval]
      rw [hsubmit]
      exact .asked hstatus hunits horigin hplanned happroval hsubmit
    | none =>
      have hsubmit : flow.desk.submit settings cache (some account) =
          (flow.desk.taken.beginExecution attempt.plan, .ok (attempt, none)) := by
        rw [hattempt] at happroval ⊢
        rw [Desk.submit_eq_taken settings cache account hstatus hunits, hplan]
        simp only [happroval]
      rw [hsubmit]
      exact .executed hstatus hunits horigin hplanned happroval hsubmit

theorem steps_tick (cache : ReadCache) (account : Option Address) :
    Step settings flow (.tick cache account) (flow.step settings (.tick cache account)).1
      (flow.step settings (.tick cache account)).2 := by
  simp only [step, Flow.tick]
  cases hresume : flow.desk.resume settings cache account with
  | error error => exact .passed (Or.inr ⟨error, hresume, rfl⟩)
  | ok taken =>
    cases taken with
    | none => exact .passed (Or.inl ⟨hresume, rfl⟩)
    | some result =>
      obtain ⟨desk, attempt⟩ := result
      cases account with
      | none => simp [Desk.resume] at hresume
      | some account =>
        simp only [Desk.resume] at hresume
        split at hresume
        · cases hresume
        · rename_i hguard
          simp only [Bool.or_eq_true, not_or, decide_eq_true_eq, Bool.not_eq_true,
            Option.isSome_eq_false_iff, Option.isNone_iff_eq_none, ne_eq, Decidable.not_not]
            at hguard
          obtain ⟨⟨⟨hstatus, hflight⟩, hunits⟩, hneeds⟩ := hguard
          cases hplan : Plan.ofIntent flow.desk.intent settings.campaign settings.contracts with
          | error error => simp [hplan, Except.map] at hresume
          | ok plan =>
            simp only [hplan, Except.map, Except.ok.injEq, Option.some.injEq,
              Prod.mk.injEq] at hresume
            obtain ⟨rfl, hattempt⟩ := hresume
            have horigin : attempt.epoch = flow.desk.epoch ∧ attempt.account = account ∧
                attempt.intent = flow.desk.intent := by
              rw [← hattempt]
              exact ⟨rfl, rfl, rfl⟩
            have hplanned : Plan.ofIntent attempt.intent settings.campaign settings.contracts =
                .ok attempt.plan := by
              rw [← hattempt]
              exact hplan
            obtain rfl : attempt.plan = plan := by rw [← hattempt]
            exact .resumed hstatus hflight hunits hneeds horigin hplanned

/-- A failure of a call, whether or not its intent is still the current one. -/
theorem steps_fail {move : Move} {call : OpenCall} {error : FlowError} {bridged : Bool}
    (hmove : move.call? = some call.id) (hcall : flow.find? call.id = some call)
    (hfailure : call.failure? move = some (error, bridged))
    (hawaits : call.stage.awaits move = true) (hstage : ∀ hash, call.stage ≠ .sent hash)
    (haccepted : ∀ hash, move ≠ .submitted call.id (.ok hash)) :
    Step settings flow move (flow.fail call error bridged).1 (flow.fail call error bridged).2 := by
  rw [Flow.fail, Desk.fail_eq]
  by_cases hepoch : flow.desk.epoch = call.attempt.epoch
  · rw [if_pos hepoch]
    exact .failed hmove hcall hfailure hepoch
  · rw [if_neg hepoch]
    exact .superseded hmove hcall hawaits hstage haccepted (Or.inl hepoch)

variable {flow} in
theorem id_of_find? {id : Nat} {call : OpenCall} (h : flow.find? id = some call) :
    call.id = id := by
  simpa [find?] using List.find?_some h

theorem steps_submitted (id : Nat) (outcome : Except FlowError TxHash) :
    Step settings flow (.submitted id outcome)
      (flow.step settings (.submitted id outcome)).1
      (flow.step settings (.submitted id outcome)).2 := by
  cases hcall : flow.find? id with
  | none =>
    simp only [step, submitted, hcall]
    exact .missed rfl (by simp [hcall])
  | some call =>
    obtain rfl := id_of_find? hcall
    cases hstage : call.stage with
    | approving =>
      cases outcome with
      | ok hash =>
        simp only [step, submitted, hcall, hstage]
        exact .approvalAccepted hcall hstage
      | error error =>
        simp only [step, submitted, hcall, hstage]
        exact steps_fail settings flow rfl hcall (by simp [OpenCall.failure?, hstage])
          (by simp [hstage, Stage.awaits]) (by simp [hstage]) (by simp)
    | executing =>
      cases outcome with
      | ok hash =>
        simp only [step, submitted, hcall, hstage]
        exact .executionAccepted hcall hstage
      | error error =>
        simp only [step, submitted, hcall, hstage]
        exact steps_fail settings flow rfl hcall (by simp [OpenCall.failure?, hstage])
          (by simp [hstage, Stage.awaits]) (by simp [hstage]) (by simp)
    | approvalSent hash | approved | sent hash =>
      simp only [step, submitted, hcall, hstage]
      exact .missed rfl (by
        intro other hother
        obtain rfl := Option.some.inj (hcall.symm.trans hother)
        simp [hstage, Stage.awaits])

theorem steps_mined (id : Nat) (outcome : Except FlowError Bool) :
    Step settings flow (.mined id outcome) (flow.step settings (.mined id outcome)).1
      (flow.step settings (.mined id outcome)).2 := by
  cases hcall : flow.find? id with
  | none =>
    simp only [step, mined, hcall]
    exact .missed rfl (by simp [hcall])
  | some call =>
    obtain rfl := id_of_find? hcall
    cases hstage : call.stage with
    | approvalSent hash =>
      match outcome with
      | .error error | .ok false =>
        simp only [step, mined, hcall, hstage]
        exact steps_fail settings flow rfl hcall (by simp [OpenCall.failure?, hstage])
          (by simp [hstage, Stage.awaits]) (by simp [hstage]) (by simp)
      | .ok true =>
        simp only [step, mined, hcall, hstage, Desk.approve]
        by_cases hepoch : flow.desk.epoch = call.attempt.epoch
        · rw [if_pos hepoch]
          exact .approved hcall hstage hepoch
        · rw [if_neg hepoch]
          exact .superseded rfl hcall (by simp [hstage, Stage.awaits]) (by simp [hstage])
            (by simp) (Or.inl hepoch)
    | sent hash =>
      simp only [step, mined, hcall, hstage]
      exact .settled hcall hstage (Desk.settles flow.desk hash outcome)
    | approving | approved | executing =>
      simp only [step, mined, hcall, hstage]
      exact .missed rfl (by
        intro other hother
        obtain rfl := Option.some.inj (hcall.symm.trans hother)
        simp [hstage, Stage.awaits])

theorem steps_proceed (id : Nat) :
    Step settings flow (.proceed id) (flow.step settings (.proceed id)).1
      (flow.step settings (.proceed id)).2 := by
  cases hcall : flow.find? id with
  | none =>
    simp only [step, proceed, hcall]
    exact .missed rfl (by simp [hcall])
  | some call =>
    obtain rfl := id_of_find? hcall
    cases hstage : call.stage with
    | approved =>
      simp only [step, proceed, hcall, hstage, Desk.claim]
      by_cases hclaim : flow.desk.epoch = call.attempt.epoch ∧ flow.desk.status = .approved
      · rw [if_pos hclaim]
        exact .claimed hcall hstage hclaim.1 hclaim.2
      · rw [if_neg hclaim]
        refine .superseded rfl hcall (by simp [hstage, Stage.awaits]) (by simp [hstage]) (by simp)
          ?_
        by_cases hepoch : flow.desk.epoch = call.attempt.epoch
        · exact Or.inr ⟨hstage, fun hstatus => hclaim ⟨hepoch, hstatus⟩⟩
        · exact Or.inl hepoch
    | approving | approvalSent hash | executing | sent hash =>
      simp only [step, proceed, hcall, hstage]
      exact .missed rfl (by
        intro other hother
        obtain rfl := Option.some.inj (hcall.symm.trans hother)
        simp [hstage, Stage.awaits])

/-- Every step goes one of these ways. -/
theorem steps (move : Move) :
    Step settings flow move (flow.step settings move).1 (flow.step settings move).2 := by
  cases move with
  | edit account edit => exact steps_edit settings flow account edit
  | submit cache account => exact steps_submit settings flow cache account
  | tick cache account => exact steps_tick settings flow cache account
  | report hash confirmed =>
    exact .reported (Desk.settles flow.desk hash (.ok confirmed))
  | submitted id outcome => exact steps_submitted settings flow id outcome
  | mined id outcome => exact steps_mined settings flow id outcome
  | proceed id => exact steps_proceed settings flow id
  | abandon id => exact .abandoned id

end Flow

end DonationFlow
