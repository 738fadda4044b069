import DonationFlow.Desk.Edit
import DonationFlow.Desk.Settle

/-!
# What an operation of the desk touches

Each operation is one update of the fields it names, and adds to the log only
the events listed beside it.  A reader of the desk can rewrite with these
equations and never needs the definitions behind them.
-/

namespace DonationFlow

/-- The event of a status that replaces `old`, if it is news. -/
def Status.news (old new : Status) : List Event :=
  if old = new then [] else [.status new]

/-- The event of a bridge status that replaces `old`, if it is news. -/
def BridgeStatus.news (old new : BridgeStatus) : List Event :=
  if old = new then [] else [.bridge new]

/-- The status once an amount was typed. -/
def Status.afterTyping (status : Status) : Status :=
  if status.isTerminal then .idle else status

@[simp] theorem Status.news_self (status : Status) : Status.news status status = [] := by
  simp [Status.news]

theorem Status.news_of_ne {old new : Status} (h : old ≠ new) :
    Status.news old new = [.status new] := by
  simp [Status.news, h]

/-- A status that is not in progress is idle or final. -/
theorem Status.idle_or_final {status : Status} (h : status.isInProgress = false) :
    status = .idle ∨ status = .success ∨ status = .error := by
  cases status with
  | idle => exact Or.inl rfl
  | success => exact Or.inr (Or.inl rfl)
  | error => exact Or.inr (Or.inr rfl)
  | approving | approved | pending => cases h

theorem Status.isInProgress_of_isTerminal {status : Status} (h : status.isTerminal = true) :
    status.isInProgress = false := by
  cases status with
  | success | error => rfl
  | idle | approving | approved | pending => cases h

namespace Plan

theorem relayed_ne_busy (intent : Intent) (campaign : Word) (contracts : Contracts) :
    relayed intent campaign contracts ≠ .error .busy := by
  rw [relayed]
  split
  · split
    · rw [relayValue]
      split
      · split <;> exact fun heq => nomatch heq
      · exact fun heq => nomatch heq
    · exact fun heq => nomatch heq
  · exact fun heq => nomatch heq

theorem direct_ne_busy (intent : Intent) (campaign : Word) (settlement : Address) :
    direct intent campaign settlement ≠ .error .busy := by
  rw [direct]
  dsimp only
  split
  · exact fun heq => nomatch heq
  · split
    · exact fun heq => nomatch heq
    · rw [contractOf]
      split <;> exact fun heq => nomatch heq

/-- Planning never fails with the error of a submission in progress. -/
theorem ofIntent_ne_busy (intent : Intent) (campaign : Word) (contracts : Contracts) :
    ofIntent intent campaign contracts ≠ .error .busy := by
  rw [ofIntent]
  split
  · have hrelayed := relayed_ne_busy intent campaign contracts
    cases hplan : relayed intent campaign contracts with
    | ok request => exact fun heq => nomatch heq
    | error error =>
      rintro ⟨⟩
      exact hrelayed hplan
  · have hdirect := direct_ne_busy intent campaign contracts.settlement
    cases hplan : direct intent campaign contracts.settlement with
    | ok request => exact fun heq => nomatch heq
    | error error =>
      rintro ⟨⟩
      exact hdirect hplan

end Plan

namespace Desk

theorem enter_eq (desk : Desk) (status : Status) :
    desk.enter status =
      { desk with status, log := desk.log ++ Status.news desk.status status } := by
  rw [enter]
  split
  · rename_i heq
    subst heq
    simp
  · rename_i hne
    rw [Status.news_of_ne hne]
    rfl

theorem setBridge_eq (desk : Desk) (bridge : BridgeStatus) :
    desk.setBridge bridge =
      { desk with bridge, log := desk.log ++ BridgeStatus.news desk.bridge bridge } := by
  rw [setBridge]
  split
  · rename_i heq
    subst heq
    simp [BridgeStatus.news]
  · rename_i hne
    simp [BridgeStatus.news, hne, emit]

/-- The bridge status after `bridge` was set, if the condition held. -/
def bridgeIf (desk : Desk) (condition : Bool) (bridge : BridgeStatus) : BridgeStatus :=
  if condition then bridge else desk.bridge

theorem setBridgeIf_eq (desk : Desk) (condition : Bool) (bridge : BridgeStatus) :
    desk.setBridgeIf condition bridge =
      { desk with
        bridge := desk.bridgeIf condition bridge
        log := desk.log ++ BridgeStatus.news desk.bridge (desk.bridgeIf condition bridge) } := by
  cases condition
  · simp [setBridgeIf, bridgeIf, BridgeStatus.news]
  · simp [setBridgeIf, bridgeIf, setBridge_eq]

theorem notify_eq (desk : Desk) (notice : Notice) :
    desk.notify notice = { desk with log := desk.log ++ [.notice notice] } := rfl

theorem beginExecution_eq (desk : Desk) (plan : Plan) :
    desk.beginExecution plan =
      { desk with
        status := .pending
        bridge := desk.bridgeIf plan.bridged .bridging
        log := desk.log ++ Status.news desk.status .pending ++
          BridgeStatus.news desk.bridge (desk.bridgeIf plan.bridged .bridging) } := by
  simp only [beginExecution, enter_eq, setBridgeIf_eq]
  rfl

/-! ## Submissions -/

/-- The desk once a submission is past the refusals. -/
def taken (desk : Desk) : Desk :=
  { desk with epoch := desk.epoch + 1, lastError := none }.setBridge .idle

theorem taken_eq (desk : Desk) :
    desk.taken =
      { desk with
        bridge := .idle
        epoch := desk.epoch + 1
        lastError := none
        log := desk.log ++ BridgeStatus.news desk.bridge .idle } := by
  simp only [taken, setBridge_eq]

/-- The desk once a submission was taken and found no plan. -/
def unplanned (desk : Desk) (error : FlowError) : Desk :=
  { desk.taken with lastError := some error }.enter .error

theorem unplanned_eq (desk : Desk) (error : FlowError) :
    desk.unplanned error =
      { desk with
        status := .error
        bridge := .idle
        epoch := desk.epoch + 1
        lastError := some error
        log := desk.log ++ BridgeStatus.news desk.bridge .idle ++
          Status.news desk.status .error } := by
  simp only [unplanned, enter_eq, taken_eq]

/-- Past the refusals, the plan and the need of an approval decide. -/
theorem submit_eq_taken {desk : Desk} (settings : Settings) (cache : ReadCache)
    (account : Address) (hstatus : desk.status.isInProgress = false)
    (hunits : desk.intent.units.isZero = false) :
    desk.submit settings cache (some account) =
      match Plan.ofIntent desk.taken.intent settings.campaign settings.contracts with
      | .error error => (desk.unplanned error, .error error)
      | .ok plan =>
        match approvalFor settings cache account desk.taken.intent with
        | some approval => (desk.taken.enter .approving,
            .ok (⟨desk.taken.epoch, account, desk.taken.intent, plan⟩, some approval))
        | none => (desk.taken.beginExecution plan,
            .ok (⟨desk.taken.epoch, account, desk.taken.intent, plan⟩, none)) := by
  simp only [submit, hstatus, hunits, Bool.false_eq_true, if_false]
  rfl

/-- A submission is refused as busy exactly if one is in progress. -/
theorem submit_busy_iff (desk : Desk) (settings : Settings) (cache : ReadCache)
    (account : Address) :
    (desk.submit settings cache (some account)).2 = .error .busy ↔
      desk.status.isInProgress = true := by
  cases hstatus : desk.status.isInProgress with
  | true => simp [submit, hstatus]
  | false =>
    refine iff_of_false ?_ Bool.false_ne_true
    cases hunits : desk.intent.units.isZero with
    | true => simp [submit, hstatus, hunits]
    | false =>
      rw [submit_eq_taken settings cache account hstatus hunits]
      have hplanned := Plan.ofIntent_ne_busy desk.taken.intent settings.campaign settings.contracts
      cases hplan : Plan.ofIntent desk.taken.intent settings.campaign settings.contracts with
      | error error =>
        rintro ⟨⟩
        exact hplanned hplan
      | ok plan =>
        dsimp only
        cases approvalFor settings cache account desk.taken.intent <;>
          exact fun heq => nomatch heq

/-- The desk once a call of the current intent failed. -/
def failWith (desk : Desk) (error : FlowError) (bridged : Bool) : Desk :=
  (({ desk with lastError := some error }.enter .error).setBridgeIf bridged .failed).notify
    (.failed (Notice.failure error) none)

theorem failWith_eq (desk : Desk) (error : FlowError) (bridged : Bool) :
    desk.failWith error bridged =
      { desk with
        status := .error
        bridge := desk.bridgeIf bridged .failed
        lastError := some error
        log := desk.log ++ Status.news desk.status .error ++
          BridgeStatus.news desk.bridge (desk.bridgeIf bridged .failed) ++
          [.notice (.failed (Notice.failure error) none)] } := by
  simp only [failWith, enter_eq, setBridgeIf_eq, notify_eq]
  rfl

theorem fail_eq (desk : Desk) (attempt : Attempt) (error : FlowError) (bridged : Bool) :
    desk.fail attempt error bridged =
      if desk.epoch = attempt.epoch then some (desk.failWith error bridged) else none := rfl

/-! ## Edits -/

theorem reset_eq (desk : Desk) (intent : Intent) :
    desk.reset intent =
      { desk with
        intent
        status := .idle
        bridge := .idle
        epoch := desk.epoch + 1
        inFlight := none
        lastError := none
        log := desk.log ++ Status.news desk.status .idle ++
          BridgeStatus.news desk.bridge .idle } := by
  simp only [reset, enter_eq, setBridge_eq]

theorem typeAmount_eq (desk : Desk) (text : String) :
    desk.typeAmount text =
      { desk with
        intent := desk.intent.withAmount text
        status := Status.afterTyping desk.status
        lastError := if desk.status.isTerminal then none else desk.lastError
        log := desk.log ++ Status.news desk.status (Status.afterTyping desk.status) } := by
  unfold typeAmount Status.afterTyping
  cases hterminal : desk.status.isTerminal
  · simp [hterminal]
  · simp [hterminal, enter_eq]

/-- The amount of an edit is typed, if it has one. -/
def typeIf (desk : Desk) : Option String → Desk
  | some text => desk.typeAmount text
  | none => desk

@[simp] theorem typeIf_epoch (desk : Desk) (amount : Option String) :
    (desk.typeIf amount).epoch = desk.epoch := by
  cases amount <;> simp [typeIf, typeAmount_eq]

@[simp] theorem typeIf_inFlight (desk : Desk) (amount : Option String) :
    (desk.typeIf amount).inFlight = desk.inFlight := by
  cases amount <;> simp [typeIf, typeAmount_eq]

@[simp] theorem typeIf_processed (desk : Desk) (amount : Option String) :
    (desk.typeIf amount).processed = desk.processed := by
  cases amount <;> simp [typeIf, typeAmount_eq]

@[simp] theorem typeIf_bridge (desk : Desk) (amount : Option String) :
    (desk.typeIf amount).bridge = desk.bridge := by
  cases amount <;> simp [typeIf, typeAmount_eq]

/-- Typing an amount leaves a status that is not final. -/
theorem typeIf_status_of_not_terminal {desk : Desk} (amount : Option String)
    (h : desk.status.isTerminal = false) : (desk.typeIf amount).status = desk.status := by
  cases amount <;> simp [typeIf, typeAmount_eq, Status.afterTyping, h]

/-- Typing an amount leaves the status or, if it is final, makes it idle. -/
theorem typeIf_status (desk : Desk) (amount : Option String) :
    (desk.typeIf amount).status = desk.status ∨
      desk.status.isTerminal = true ∧ (desk.typeIf amount).status = .idle := by
  cases hterminal : desk.status.isTerminal with
  | false => exact Or.inl (typeIf_status_of_not_terminal amount hterminal)
  | true => cases amount <;> simp [typeIf, typeAmount_eq, Status.afterTyping, hterminal]

theorem typeIf_reset_status (desk : Desk) (intent : Intent) (amount : Option String) :
    ((desk.reset intent).typeIf amount).status = .idle := by
  rw [typeIf_status_of_not_terminal amount (by rw [reset_eq]; rfl), reset_eq]

/-- An edit that is carried out leads to its target: it starts over if the
target differs, and types its amount in either case. -/
theorem edit_eq_ok_iff {desk entered : Desk} {edit : Edit} {startsOver : Bool} :
    desk.edit edit = .ok (entered, startsOver) ↔
      ∃ action chain token, edit.target desk.intent = .ok (action, chain, token) ∧
        differs desk.intent action chain token = startsOver ∧
        entered = (if startsOver then desk.reset (Intent.blank action chain token)
          else desk).typeIf edit.amount := by
  rw [Desk.edit]
  cases htarget : edit.target desk.intent with
  | error error => simp [bind, Except.bind]
  | ok target =>
    obtain ⟨action, chain, token⟩ := target
    simp only [bind, Except.bind, pure, Except.pure, Except.ok.injEq, Prod.mk.injEq]
    constructor
    · rintro ⟨hentered, hdiffers⟩
      refine ⟨action, chain, token, ⟨rfl, rfl, rfl⟩, hdiffers, ?_⟩
      rw [← hentered, ← hdiffers]
      cases edit.amount <;> rfl
    · rintro ⟨_, _, _, ⟨rfl, rfl, rfl⟩, hdiffers, hentered⟩
      refine ⟨?_, hdiffers⟩
      rw [hentered, ← hdiffers]
      cases edit.amount <;> rfl

/-! ## Settling -/

/-- What is in flight once the execution of the attempt was accepted. -/
def flightOf (settings : Settings) (attempt : Attempt) (hash : TxHash) : InFlight where
  hash := hash
  bridged := attempt.plan.bridged
  text := attempt.intent.text
  target := refreshTarget settings attempt

theorem recordFlight_eq (desk : Desk) (settings : Settings) (attempt : Attempt)
    (hash : TxHash) :
    desk.recordFlight settings attempt hash =
      { desk with
        inFlight := if desk.epoch = attempt.epoch then some (flightOf settings attempt hash)
          else desk.inFlight } := by
  rw [recordFlight]
  split <;> rfl

theorem applySuccess_eq (desk : Desk) (flight : InFlight) (hash : TxHash) :
    desk.applySuccess flight hash =
      { desk with
        intent := desk.intent.clearAmount
        status := .success
        bridge := desk.bridgeIf flight.bridged .complete
        inFlight := none
        processed := desk.processed.put hash true
        log := desk.log ++ Status.news desk.status .success ++
          BridgeStatus.news desk.bridge (desk.bridgeIf flight.bridged .complete) ++
          [.notice (.confirmed (Notice.confirmation flight) hash)] } := by
  simp only [applySuccess, enter_eq, setBridgeIf_eq, notify_eq]
  rfl

theorem applyFailure_eq (desk : Desk) (flight : InFlight) (hash : TxHash) (error : FlowError) :
    desk.applyFailure flight hash error =
      { desk with
        status := .error
        bridge := desk.bridgeIf flight.bridged .failed
        inFlight := none
        lastError := some error
        log := desk.log ++ Status.news desk.status .error ++
          BridgeStatus.news desk.bridge (desk.bridgeIf flight.bridged .failed) ++
          [.notice (.failed (Notice.failure error) (some hash))] } := by
  simp only [applyFailure, enter_eq, setBridgeIf_eq, notify_eq]
  rfl

end Desk

end DonationFlow
