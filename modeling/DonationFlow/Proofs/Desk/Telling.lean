import DonationFlow.Proofs.Desk.Settling

/-!
# What is told

The log only grows.  An operation tells the status if it changed, once, and the
notices listed beside it; `Tells` says both at once.
-/

namespace DonationFlow

/-- The status that an event tells. -/
def Event.status? : Event → Option Status
  | .status entered => some entered
  | _ => none

/-- The notice that an event tells. -/
def Event.notice? : Event → Option Notice
  | .notice told => some told
  | _ => none

theorem Event.count_status (events : List Event) (status : Status) :
    events.count (.status status) = (events.filterMap Event.status?).count status := by
  induction events with
  | nil => rfl
  | cons event events ih =>
    cases event with
    | status entered =>
      have hhead : (.status entered : Event).status? = some entered := rfl
      rw [List.count_cons, ih, List.filterMap_cons_some hhead, List.count_cons]
      simp
    | bridge told =>
      have hhead : (.bridge told : Event).status? = none := rfl
      rw [List.count_cons, ih, List.filterMap_cons_none hhead]
      simp
    | notice told =>
      have hhead : (.notice told : Event).status? = none := rfl
      rw [List.count_cons, ih, List.filterMap_cons_none hhead]
      simp

@[simp] theorem Status.filterMap_status_news (old new : Status) :
    (Status.news old new).filterMap Event.status? = if old = new then [] else [new] := by
  rw [Status.news]
  split <;> rfl

@[simp] theorem Status.filterMap_notice_news (old new : Status) :
    (Status.news old new).filterMap Event.notice? = [] := by
  rw [Status.news]
  split <;> rfl

@[simp] theorem BridgeStatus.filterMap_status_news (old new : BridgeStatus) :
    (BridgeStatus.news old new).filterMap Event.status? = [] := by
  rw [BridgeStatus.news]
  split <;> rfl

@[simp] theorem BridgeStatus.filterMap_notice_news (old new : BridgeStatus) :
    (BridgeStatus.news old new).filterMap Event.notice? = [] := by
  rw [BridgeStatus.news]
  split <;> rfl

namespace Desk

/-- From one desk to the other the log grew by the change of the status and by
the notices. -/
def Tells (before after : Desk) (notices : List Notice) : Prop :=
  ∃ events, after.log = before.log ++ events ∧
    events.filterMap Event.status? =
      (if before.status = after.status then [] else [after.status]) ∧
    events.filterMap Event.notice? = notices

variable {before middle after : Desk}

theorem tells_nothing (hlog : after.log = before.log) (hstatus : after.status = before.status) :
    before.Tells after [] := by
  refine ⟨[], ?_, ?_, rfl⟩
  · rw [hlog, List.append_nil]
  · rw [hstatus]
    simp

/-- Two operations in a row tell what each tells, if only one of them changes
the status. -/
theorem Tells.trans {early late : List Notice} (hearly : before.Tells middle early)
    (hlate : middle.Tells after late)
    (hstatus : middle.status = before.status ∨ middle.status = after.status) :
    before.Tells after (early ++ late) := by
  obtain ⟨first, hfirst, hfirstStatus, rfl⟩ := hearly
  obtain ⟨second, hsecond, hsecondStatus, rfl⟩ := hlate
  refine ⟨first ++ second, ?_, ?_, List.filterMap_append⟩
  · rw [hsecond, hfirst, List.append_assoc]
  · rw [List.filterMap_append, hfirstStatus, hsecondStatus]
    rcases hstatus with heq | heq <;> simp [heq]

/-- The log tells a status each time it is entered. -/
theorem Tells.count_status {notices : List Notice} (h : before.Tells after notices)
    (status : Status) :
    after.log.count (.status status) =
      before.log.count (.status status) +
        if before.status ≠ status ∧ after.status = status then 1 else 0 := by
  obtain ⟨events, hlog, hstatus, -⟩ := h
  rw [hlog, List.count_append, Event.count_status events, hstatus]
  by_cases hchanged : before.status = after.status
  · simp [hchanged]
  · by_cases hentered : after.status = status
    · have hbefore : before.status ≠ status := fun heq => hchanged (heq.trans hentered.symm)
      simp [hentered, hbefore]
    · simp [hchanged, hentered]

theorem tells_enter (desk : Desk) (status : Status) : desk.Tells (desk.enter status) [] := by
  rw [enter_eq]
  exact ⟨Status.news desk.status status, rfl, by simp, by simp⟩

theorem tells_taken (desk : Desk) : desk.Tells desk.taken [] := by
  rw [taken_eq]
  exact ⟨BridgeStatus.news desk.bridge .idle, rfl, by simp, by simp⟩

theorem tells_unplanned (desk : Desk) (error : FlowError) :
    desk.Tells (desk.unplanned error) [] := by
  rw [unplanned_eq]
  exact ⟨_, List.append_assoc .., by simp, by simp⟩

theorem tells_beginExecution (desk : Desk) (plan : Plan) :
    desk.Tells (desk.beginExecution plan) [] := by
  rw [beginExecution_eq]
  exact ⟨_, List.append_assoc .., by simp, by simp⟩

theorem tells_reset (desk : Desk) (intent : Intent) : desk.Tells (desk.reset intent) [] := by
  rw [reset_eq]
  exact ⟨_, List.append_assoc .., by simp, by simp⟩

theorem tells_typeIf (desk : Desk) (amount : Option String) :
    desk.Tells (desk.typeIf amount) [] := by
  cases amount with
  | none => exact tells_nothing rfl rfl
  | some text =>
    rw [typeIf, typeAmount_eq]
    exact ⟨_, rfl, by simp, by simp⟩

theorem tells_failWith (desk : Desk) (error : FlowError) (bridged : Bool) :
    desk.Tells (desk.failWith error bridged) [.failed (Notice.failure error) none] := by
  rw [failWith_eq]
  refine ⟨_, by simp only [List.append_assoc]; rfl, ?_, ?_⟩ <;>
    simp [Event.status?, Event.notice?]

theorem tells_applySuccess (desk : Desk) (flight : InFlight) (hash : TxHash) :
    desk.Tells (desk.applySuccess flight hash)
      [.confirmed (Notice.confirmation flight) hash] := by
  rw [applySuccess_eq]
  refine ⟨_, by simp only [List.append_assoc]; rfl, ?_, ?_⟩ <;>
    simp [Event.status?, Event.notice?]

theorem tells_applyFailure (desk : Desk) (flight : InFlight) (hash : TxHash)
    (error : FlowError) :
    desk.Tells (desk.applyFailure flight hash error)
      [.failed (Notice.failure error) (some hash)] := by
  rw [applyFailure_eq]
  refine ⟨_, by simp only [List.append_assoc]; rfl, ?_, ?_⟩ <;>
    simp [Event.status?, Event.notice?]

end Desk

end DonationFlow
