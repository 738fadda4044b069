import DonationFlow.Proofs.Flow.Supersession

/-!
# Who carries a submission on

While a submission is in progress, some call of its epoch is under way, with one
exception: the execution was reported confirmed before the executor's answer was
recorded.  Its hash is then in the table as not applied, the call that waits for
it is turned away, and nothing but an edit that starts over leads out.
-/

namespace DonationFlow.Flow

/-- Some call of the current epoch is under way. -/
def Attended (flow : Flow) : Prop := ∃ call ∈ flow.calls, call.attempt.epoch = flow.desk.epoch

/-- Some current call is at such a stage. -/
def Holds (flow : Flow) (P : Stage → Prop) : Prop :=
  ∃ call ∈ flow.calls, call.attempt.epoch = flow.desk.epoch ∧ P call.stage

/-- Each status in progress has a current call that leads on from it.  An
execution in flight has one only as long as its hash is not processed. -/
structure Carried (flow : Flow) : Prop where
  approving : flow.desk.status = .approving →
    flow.Holds fun stage => stage = .approving ∨ ∃ hash, stage = .approvalSent hash
  approved : flow.desk.status = .approved → flow.Holds (· = .approved)
  pending : flow.desk.status = .pending → flow.desk.inFlight = none → flow.Holds (· = .executing)
  flight : ∀ flight, flow.desk.inFlight = some flight →
    flow.desk.processed.get? flight.hash = none → flow.Holds (· = .sent flight.hash)

section Carrying

variable {settings : Settings} {flow : Flow} {P : Stage → Prop}

theorem Holds.attended (h : flow.Holds P) : flow.Attended := by
  obtain ⟨call, hcall, hcurrent, -⟩ := h
  exact ⟨call, hcall, hcurrent⟩

theorem Holds.withDesk (h : flow.Holds P) {desk : Desk} (hepoch : desk.epoch = flow.desk.epoch) :
    ({ flow with desk } : Flow).Holds P := by
  obtain ⟨call, hcall, hcurrent, hstage⟩ := h
  exact ⟨call, hcall, hcurrent.trans hepoch.symm, hstage⟩

theorem holds_push {attempt : Attempt} {stage : Stage} (hepoch : attempt.epoch = flow.desk.epoch)
    (hstage : P stage) : (flow.push attempt stage).Holds P :=
  ⟨_, mem_push_iff.2 (Or.inr rfl), hepoch, hstage⟩

theorem Holds.drop (h : flow.Holds P) (hnumbered : flow.Numbered) {id : Nat} {ended : OpenCall}
    (hended : flow.find? id = some ended)
    (hother : ended.attempt.epoch ≠ flow.desk.epoch ∨ ¬P ended.stage) :
    (flow.drop id).Holds P := by
  obtain ⟨call, hcall, hcurrent, hstage⟩ := h
  refine ⟨call, mem_drop_iff.2 ⟨hcall, ?_⟩, hcurrent, hstage⟩
  intro hid
  have heq := hnumbered.eq_of_id hcall (mem_of_find? hended) (hid.trans (id_of_find? hended).symm)
  rw [heq] at hcurrent hstage
  rcases hother with hstale | hstage'
  · exact hstale hcurrent
  · exact hstage' hstage

theorem Holds.advance (h : flow.Holds P) (hnumbered : flow.Numbered) {id : Nat}
    {moved : OpenCall} {stage : Stage} (hmoved : flow.find? id = some moved)
    (hother : moved.attempt.epoch ≠ flow.desk.epoch ∨ ¬P moved.stage) :
    (flow.advance id stage).Holds P := by
  obtain ⟨call, hcall, hcurrent, hstage⟩ := h.drop hnumbered hmoved hother
  obtain ⟨hcall, hne⟩ := mem_drop_iff.1 hcall
  exact ⟨call, (hnumbered.mem_advance_iff hmoved).2 (Or.inr ⟨hcall, hne⟩), hcurrent, hstage⟩

theorem holds_advance (hnumbered : flow.Numbered) {id : Nat} {moved : OpenCall} {stage : Stage}
    (hmoved : flow.find? id = some moved) (hepoch : flow.desk.epoch = moved.attempt.epoch)
    (hstage : P stage) : (flow.advance id stage).Holds P :=
  ⟨_, (hnumbered.mem_advance_iff hmoved).2 (Or.inl rfl), hepoch.symm, hstage⟩

/-- Nothing needs to be carried on once the status is final or idle. -/
theorem carried_of_ended (hstatus : flow.desk.status.isInProgress = false)
    (hflight : flow.desk.inFlight = none) : flow.Carried where
  approving := by
    intro heq
    rw [heq] at hstatus
    cases hstatus
  approved := by
    intro heq
    rw [heq] at hstatus
    cases hstatus
  pending := by
    intro heq
    rw [heq] at hstatus
    cases hstatus
  flight := by
    intro flight hsome
    cases hflight.symm.trans hsome

/-- A change of the desk that leaves what is looked at leaves what is carried. -/
theorem Carried.withDesk (h : flow.Carried) {desk : Desk} (hepoch : desk.epoch = flow.desk.epoch)
    (hstatus : desk.status = flow.desk.status) (hflight : desk.inFlight = flow.desk.inFlight)
    (hprocessed : ∀ flight, flow.desk.inFlight = some flight →
      desk.processed.get? flight.hash = flow.desk.processed.get? flight.hash) :
    ({ flow with desk } : Flow).Carried where
  approving := fun heq => (h.approving (hstatus.symm.trans heq)).withDesk hepoch
  approved := fun heq => (h.approved (hstatus.symm.trans heq)).withDesk hepoch
  pending := fun heq hnone =>
    (h.pending (hstatus.symm.trans heq) (hflight.symm.trans hnone)).withDesk hepoch
  flight := by
    intro flight hsome hnone
    have hsome := hflight.symm.trans hsome
    exact (h.flight flight hsome ((hprocessed flight hsome).symm.trans hnone)).withDesk hepoch

/-- A call may end if no status waits for it. -/
theorem Carried.drop (h : flow.Carried) (hnumbered : flow.Numbered) {id : Nat} {call : OpenCall}
    (hcall : flow.find? id = some call)
    (hidle : call.attempt.epoch ≠ flow.desk.epoch ∨
      (call.stage = .approved ∧ flow.desk.status ≠ .approved) ∨
      ∃ hash, call.stage = .sent hash ∧
        ∀ flight, flow.desk.inFlight = some flight →
          flow.desk.processed.get? flight.hash = none → flight.hash ≠ hash) :
    (flow.drop id).Carried where
  approving := by
    intro hstatus
    apply (h.approving hstatus).drop hnumbered hcall
    rcases hidle with hstale | ⟨hstage, -⟩ | ⟨hash, hstage, -⟩
    · exact Or.inl hstale
    · exact Or.inr (by rw [hstage]; simp)
    · exact Or.inr (by rw [hstage]; simp)
  approved := by
    intro hstatus
    apply (h.approved hstatus).drop hnumbered hcall
    rcases hidle with hstale | ⟨-, hother⟩ | ⟨hash, hstage, -⟩
    · exact Or.inl hstale
    · exact absurd hstatus hother
    · exact Or.inr (by rw [hstage]; simp)
  pending := by
    intro hstatus hnone
    apply (h.pending hstatus hnone).drop hnumbered hcall
    rcases hidle with hstale | ⟨hstage, -⟩ | ⟨hash, hstage, -⟩
    · exact Or.inl hstale
    · exact Or.inr (by rw [hstage]; simp)
    · exact Or.inr (by rw [hstage]; simp)
  flight := by
    intro flight hsome hnone
    apply (h.flight flight hsome hnone).drop hnumbered hcall
    rcases hidle with hstale | ⟨hstage, -⟩ | ⟨hash, hstage, hother⟩
    · exact Or.inl hstale
    · exact Or.inr (by rw [hstage]; simp)
    · right
      rw [hstage]
      intro heq
      exact hother flight hsome hnone (Stage.sent.inj heq).symm

/-- What settles leaves the current calls that are still needed. -/
theorem Carried.settle (h : flow.Carried) {hash : TxHash} {outcome : Except FlowError Bool}
    {desk : Desk} {settled : Settled}
    (hsettles : Desk.Settles flow.desk hash outcome desk settled) :
    ({ flow with desk } : Flow).Carried := by
  cases hsettles with
  | known | lost => exact h
  | succeeded =>
    rw [Desk.applySuccess_eq]
    exact carried_of_ended rfl rfl
  | failed =>
    rw [Desk.applyFailure_eq]
    exact carried_of_ended rfl rfl
  | strayed _ hother =>
    refine h.withDesk rfl rfl rfl ?_
    intro flight hsome
    exact Table.get?_put_of_ne _ _ (hother flight hsome)

/-- As long as nobody abandons a call, every step leaves each submission in
progress with someone to carry it on. -/
theorem Step.carried {after : Flow} {move : Move} {effects : List Effect}
    (step : Step settings flow move after effects) (howned : flow.Owned) (h : flow.Carried)
    (hstays : ∀ id, move ≠ .abandon id) : after.Carried := by
  have hnumbered := howned.numbered
  cases step with
  | declined | missed => exact h
  | refused | passed => exact ⟨h.approving, h.approved, h.pending, h.flight⟩
  | restarted =>
    apply carried_of_ended
    · rw [Desk.typeIf_reset_status]
      rfl
    · rw [Desk.typeIf_inFlight, Desk.reset_eq]
  | @retyped _ edit =>
    rcases flow.desk.typeIf_status edit.amount with hsame | ⟨hterminal, hidle⟩
    · apply h.withDesk (Desk.typeIf_epoch _ _) hsame (Desk.typeIf_inFlight _ _)
      intro flight hsome
      rw [Desk.typeIf_processed]
    · have hended := Status.isInProgress_of_isTerminal hterminal
      apply carried_of_ended
      · exact congrArg Status.isInProgress hidle
      · exact (Desk.typeIf_inFlight _ _).trans (howned.free_of_idle hended)
  | unplannable hstatus =>
    rw [Desk.unplanned_eq]
    exact carried_of_ended rfl (howned.free_of_idle hstatus)
  | asked hstatus _ hattempt =>
    have hnone := howned.free_of_idle hstatus
    rw [Desk.enter_eq, Desk.taken_eq]
    refine ⟨fun _ => holds_push hattempt.1 (Or.inl rfl), ?_, ?_, ?_⟩
    · exact fun heq => nomatch heq
    · exact fun heq => nomatch heq
    · intro flight hsome
      cases hnone.symm.trans hsome
  | executed hstatus _ hattempt =>
    have hnone := howned.free_of_idle hstatus
    rw [Desk.beginExecution_eq, Desk.taken_eq]
    refine ⟨?_, ?_, fun _ _ => holds_push hattempt.1 rfl, ?_⟩
    · exact fun heq => nomatch heq
    · exact fun heq => nomatch heq
    · intro flight hsome
      cases hnone.symm.trans hsome
  | resumed _ hnone _ _ hattempt =>
    rw [Desk.beginExecution_eq]
    refine ⟨?_, ?_, fun _ _ => holds_push hattempt.1 rfl, ?_⟩
    · exact fun heq => nomatch heq
    · exact fun heq => nomatch heq
    · intro flight hsome
      cases hnone.symm.trans hsome
  | reported hsettles => exact h.settle hsettles
  | @approvalAccepted id call hash hcall hstage =>
    refine ⟨?_, ?_, ?_, ?_⟩
    · intro hstatus
      by_cases hepoch : flow.desk.epoch = call.attempt.epoch
      · exact holds_advance hnumbered hcall hepoch (Or.inr ⟨hash, rfl⟩)
      · exact (h.approving hstatus).advance hnumbered hcall (Or.inl (Ne.symm hepoch))
    · intro hstatus
      exact (h.approved hstatus).advance hnumbered hcall (Or.inr (by rw [hstage]; simp))
    · intro hstatus hnone
      exact (h.pending hstatus hnone).advance hnumbered hcall (Or.inr (by rw [hstage]; simp))
    · intro flight hsome hnone
      exact (h.flight flight hsome hnone).advance hnumbered hcall (Or.inr (by rw [hstage]; simp))
  | @executionAccepted id call hash hcall hstage =>
    rw [Desk.recordFlight_eq]
    by_cases hepoch : flow.desk.epoch = call.attempt.epoch
    · have hshows := howned.shows_of_find? hcall hepoch hstage
      have hpending : flow.desk.status = .pending := hshows.1
      rw [if_pos hepoch]
      refine ⟨?_, ?_, (fun _ hnone => nomatch hnone), ?_⟩
      · intro hstatus
        cases hpending.symm.trans hstatus
      · intro hstatus
        cases hpending.symm.trans hstatus
      · rintro flight ⟨⟩ -
        exact holds_advance (hnumbered.withDesk _) hcall hepoch rfl
    · rw [if_neg hepoch]
      have hstale := Ne.symm hepoch
      exact
        { approving := fun hstatus => (h.approving hstatus).advance hnumbered hcall (Or.inl hstale)
          approved := fun hstatus => (h.approved hstatus).advance hnumbered hcall (Or.inl hstale)
          pending := fun hstatus hnone =>
            (h.pending hstatus hnone).advance hnumbered hcall (Or.inl hstale)
          flight := fun flight hsome hnone =>
            (h.flight flight hsome hnone).advance hnumbered hcall (Or.inl hstale) }
  | failed _ hcall hfailure hepoch =>
    have hnone := howned.inFlight_eq_none_of_failure hcall hfailure hepoch
    rw [Desk.failWith_eq]
    exact carried_of_ended rfl hnone
  | superseded _ hcall _ _ _ hreason =>
    apply h.drop hnumbered hcall
    rcases hreason with hstale | happroved
    · exact Or.inl (fun heq => hstale heq.symm)
    · exact Or.inr (Or.inl happroved)
  | approved hcall hstage hepoch =>
    have happroving : flow.desk.status = .approving := howned.shows_of_find? hcall hepoch hstage
    have hnone := howned.inFlight_eq_none (by rw [happroving]; simp)
    rw [Desk.enter_eq]
    refine ⟨?_, fun _ => holds_advance (hnumbered.withDesk _) hcall hepoch rfl, ?_, ?_⟩
    · exact fun heq => nomatch heq
    · exact fun heq => nomatch heq
    · intro flight hsome
      cases hnone.symm.trans hsome
  | claimed hcall _ hepoch hstatus =>
    have hnone := howned.inFlight_eq_none (by rw [hstatus]; simp)
    rw [Desk.beginExecution_eq]
    refine ⟨?_, ?_, fun _ _ => holds_advance (hnumbered.withDesk _) hcall hepoch rfl, ?_⟩
    · exact fun heq => nomatch heq
    · exact fun heq => nomatch heq
    · intro flight hsome
      cases hnone.symm.trans hsome
  | @settled id call hash outcome after result hcall hstage hsettles =>
    apply (h.settle hsettles).drop (hnumbered.withDesk _) hcall
    exact Or.inr (Or.inr ⟨hash, hstage, fun flight hsome hnone => hsettles.none_left hsome hnone⟩)
  | abandoned id => exact absurd rfl (hstays id)

/-- A submission in progress that nobody carries on has an execution in flight
that is processed already. -/
theorem Carried.exists_processed (h : flow.Carried) (hstatus : flow.desk.status.isInProgress = true)
    (hunattended : ¬flow.Attended) :
    ∃ flight, flow.desk.inFlight = some flight ∧ flow.desk.processed.get? flight.hash ≠ none := by
  cases hshown : flow.desk.status with
  | idle | success | error =>
    rw [hshown] at hstatus
    cases hstatus
  | approving => exact absurd (h.approving hshown).attended hunattended
  | approved => exact absurd (h.approved hshown).attended hunattended
  | pending =>
    cases hflight : flow.desk.inFlight with
    | none => exact absurd (h.pending hshown hflight).attended hunattended
    | some flight =>
      refine ⟨flight, rfl, ?_⟩
      intro hnone
      exact hunattended (h.flight flight hflight hnone).attended

theorem carried_start : ({} : Flow).Carried := carried_of_ended rfl rfl

theorem Carried.reached (h : flow.Carried) (howned : flow.Owned) (moves : List Move)
    (hstays : ∀ id, .abandon id ∉ moves) : (flow.reached settings moves).Carried := by
  apply howned.reached_induction h
  intro turn hturn howned hbefore
  obtain ⟨hmove, hstep⟩ := step_of_mem_history hturn
  apply hstep.carried howned hbefore
  intro id habandon
  rw [habandon] at hmove
  exact hstays id hmove

end Carrying

end DonationFlow.Flow
