import DonationFlow.Proofs.Flow.Ownership

/-!
# How a submission ends

A turn ends a submission well, ends it with a failure, or does neither.  `Ends`
says what each comes with: a success clears the amount, is told once and starts
one refresh; a failure is told once; any other turn tells no notice.
-/

namespace DonationFlow

namespace Turn

/-- The hash whose outcome the turn delivers, from elsewhere or to the call that
waited for it. -/
def delivered? (turn : Turn) : Option TxHash :=
  match turn.move with
  | .report hash _ => some hash
  | .mined id _ =>
    match turn.before.find? id with
    | some ⟨_, _, .sent hash⟩ => some hash
    | _ => none
  | _ => none

/-- The targets of which the turn starts a refresh. -/
def refreshed (turn : Turn) : List RefreshTarget := turn.effects.filterMap Effect.refresh?

/-- The turn applies the success of `hash`, with all that belongs to it. -/
structure Applies (turn : Turn) (hash : TxHash) : Prop where
  delivered : turn.delivered? = some hash
  unprocessed : turn.before.desk.processed.get? hash = none
  processed : turn.after.desk.processed = turn.before.desk.processed.put hash true
  status : turn.before.desk.status = .pending ∧ turn.after.desk.status = .success
  cleared : turn.after.desk.intent = turn.before.desk.intent.clearAmount
  told : ∃ message, turn.notices = [.confirmed message hash]
  refreshed : ∃ target, turn.refreshed = [target]

/-- The turn applies no success, not even a part of one. -/
structure Spares (turn : Turn) : Prop where
  status : turn.after.desk.status = .success → turn.before.desk.status = .success
  kept : turn.delivered? ≠ none → turn.after.desk.intent = turn.before.desk.intent
  untold : ∀ message hash, .confirmed message hash ∉ turn.notices
  refreshed : turn.refreshed = []
  processed : turn.after.desk.processed = turn.before.desk.processed ∨
    ∃ hash, turn.delivered? = some hash ∧ turn.before.desk.processed.get? hash = none ∧
      turn.after.desk.processed = turn.before.desk.processed.put hash false

inductive Ends (turn : Turn) : Prop
  | quiet (hspares : turn.Spares) (htells : turn.before.desk.Tells turn.after.desk [])
  | failed {message : String} {hash : Option TxHash} (hspares : turn.Spares)
      (htells : turn.before.desk.Tells turn.after.desk [.failed message hash])
      (hprogress : turn.before.desk.status.isInProgress = true)
      (hstatus : turn.after.desk.status = .error)
      (hepoch : turn.after.desk.epoch = turn.before.desk.epoch)
  | confirmed {message : String} {hash : TxHash} (happlies : turn.Applies hash)
      (htells : turn.before.desk.Tells turn.after.desk [.confirmed message hash])
      (hepoch : turn.after.desk.epoch = turn.before.desk.epoch)

theorem notices_eq_of_tells {turn : Turn} {notices : List Notice}
    (h : turn.before.desk.Tells turn.after.desk notices) : turn.notices = notices := by
  obtain ⟨events, hlog, -, hnotices⟩ := h
  rw [Turn.notices, Turn.events, hlog, List.drop_left]
  exact hnotices

theorem Ends.tells {turn : Turn} (h : turn.Ends) :
    ∃ notices, turn.before.desk.Tells turn.after.desk notices := by
  cases h with
  | quiet _ htells | failed _ htells | confirmed _ htells => exact ⟨_, htells⟩

end Turn

namespace Flow

theorem refresh?_editRereads (account : Option Address) (startsOver : Bool) (intent : Intent) :
    (editRereads account startsOver intent).filterMap Effect.refresh? = [] := by
  unfold editRereads
  cases account <;> cases startsOver <;> rfl

theorem refresh?_approvalRereads (settings : Settings) (attempt : Attempt) :
    (approvalRereads settings attempt).filterMap Effect.refresh? = [] := by
  unfold approvalRereads
  split <;> rfl

theorem answer_not_mem_editRereads (id : Nat) (answer : Answer) (account : Option Address)
    (startsOver : Bool) (intent : Intent) :
    .answer id answer ∉ editRereads account startsOver intent := by
  unfold editRereads
  cases account <;> cases startsOver <;> simp

theorem answer_not_mem_approvalRereads (id : Nat) (answer : Answer) (settings : Settings)
    (attempt : Attempt) (owner : Nat) :
    .answer id answer ∉ .ready owner :: approvalRereads settings attempt := by
  unfold approvalRereads
  split <;> simp

theorem answer_not_mem_refreshes (id : Nat) (answer : Answer) (settled : Settled) :
    .answer id answer ∉ refreshes settled := by
  cases settled <;> simp [refreshes]

/-- A call whose execution settles gets the answer that belongs to the outcome. -/
theorem eq_answerOf_of_mem {id owner : Nat} {answer : Answer} {hash : TxHash} {settled : Settled}
    (h : .answer id answer ∈ refreshes settled ++ [.answer owner (answerOf hash settled)]) :
    id = owner ∧ answer = answerOf hash settled := by
  rcases List.mem_append.1 h with h | h
  · exact absurd h (answer_not_mem_refreshes _ _ _)
  · simpa using h

variable {turn : Turn}

/-- A turn is quiet if it tells nothing but the status, enters no success and
touches neither the table nor, on a delivery, the intent. -/
theorem ends_quiet (htells : turn.before.desk.Tells turn.after.desk [])
    (hstatus : turn.after.desk.status = .success → turn.before.desk.status = .success)
    (hkept : turn.delivered? ≠ none → turn.after.desk.intent = turn.before.desk.intent)
    (hrefreshed : turn.refreshed = [])
    (hprocessed : turn.after.desk.processed = turn.before.desk.processed) : turn.Ends := by
  refine .quiet ⟨hstatus, hkept, ?_, hrefreshed, Or.inl hprocessed⟩ htells
  intro message hash hmem
  rw [Turn.notices_eq_of_tells htells] at hmem
  cases hmem

theorem ends_of_desk_eq (hdesk : turn.after.desk = turn.before.desk)
    (hrefreshed : turn.refreshed = []) : turn.Ends := by
  have htells : turn.before.desk.Tells turn.after.desk [] :=
    Desk.tells_nothing (by rw [hdesk]) (by rw [hdesk])
  refine ends_quiet htells ?_ ?_ hrefreshed (by rw [hdesk]) <;> rw [hdesk]
  · exact id
  · exact fun _ => rfl

/-- What a turn that delivers an outcome ends is read off the way it settles. -/
theorem ends_of_settles {hash : TxHash} {outcome : Except FlowError Bool} {settled : Settled}
    (hdelivered : turn.delivered? = some hash)
    (hsettles : Desk.Settles turn.before.desk hash outcome turn.after.desk settled)
    (hpending : ∀ flight, turn.before.desk.inFlight = some flight →
      turn.before.desk.status = .pending)
    (hrefreshed : turn.refreshed = (refreshes settled).filterMap Effect.refresh?) :
    turn.Ends := by
  generalize hafter : turn.after.desk = after at hsettles
  cases hsettles with
  | @known applied =>
    apply ends_of_desk_eq hafter
    rw [hrefreshed]
    cases applied <;> rfl
  | lost => exact ends_of_desk_eq hafter hrefreshed
  | strayed hprocessed =>
    have htells : turn.before.desk.Tells turn.after.desk [] := by
      rw [hafter]
      exact Desk.tells_nothing rfl rfl
    refine .quiet ⟨?_, ?_, ?_, hrefreshed, Or.inr ⟨hash, hdelivered, hprocessed, ?_⟩⟩ htells
    · rw [hafter]
      exact id
    · rw [hafter]
      exact fun _ => rfl
    · rw [Turn.notices_eq_of_tells htells]
      exact fun _ _ hmem => nomatch hmem
    · rw [hafter]
  | @succeeded flight hprocessed hflight =>
    have htells := Desk.tells_applySuccess turn.before.desk flight hash
    rw [← hafter] at htells
    rw [Desk.applySuccess_eq] at hafter
    refine .confirmed ⟨hdelivered, hprocessed, ?_, ⟨hpending flight hflight, ?_⟩, ?_,
      ⟨_, Turn.notices_eq_of_tells htells⟩, ⟨_, hrefreshed⟩⟩ htells ?_ <;> rw [hafter]
  | @failed flight _ hprocessed hflight _ _ =>
    have htells := Desk.tells_applyFailure turn.before.desk flight hash
      (Desk.failureOf hash outcome)
    rw [← hafter] at htells
    rw [Desk.applyFailure_eq] at hafter
    refine .failed ⟨?_, ?_, ?_, hrefreshed, Or.inl ?_⟩ htells ?_ ?_ ?_
    · rw [hafter]
      exact fun hstatus => nomatch hstatus
    · rw [hafter]
      exact fun _ => rfl
    · rw [Turn.notices_eq_of_tells htells]
      simp
    · rw [hafter]
    · rw [hpending flight hflight]
      rfl
    · rw [hafter]
    · rw [hafter]

theorem delivered?_of_sent {id : Nat} {call : OpenCall} {hash : TxHash}
    {outcome : Except FlowError Bool} (hmove : turn.move = .mined id outcome)
    (hcall : turn.before.find? id = some call) (hstage : call.stage = .sent hash) :
    turn.delivered? = some hash := by
  obtain ⟨_, _, stage⟩ := call
  cases hstage
  simp only [Turn.delivered?, hmove, hcall]

theorem Step.ends {settings : Settings} {flow after : Flow} {move : Move} {effects : List Effect}
    (step : Step settings flow move after effects) (h : flow.Owned) :
    Turn.Ends ⟨flow, move, after, effects⟩ := by
  cases step with
  | declined | missed | refused | passed | approvalAccepted | superseded | abandoned =>
    exact ends_of_desk_eq rfl rfl
  | @restarted _ edit action chain token =>
    have hreset := Desk.tells_reset flow.desk (Intent.blank action chain token)
    have htyped := Desk.tells_typeIf (flow.desk.reset (Intent.blank action chain token)) edit.amount
    refine ends_quiet (hreset.trans htyped (Or.inr ?_)) ?_ (fun hmove => absurd rfl hmove)
      (refresh?_editRereads _ _ _) ?_
    · rw [Desk.typeIf_reset_status, Desk.reset_eq]
    · rw [Desk.typeIf_reset_status]
      exact fun hstatus => nomatch hstatus
    · rw [Desk.typeIf_processed, Desk.reset_eq]
  | retyped =>
    refine ends_quiet (Desk.tells_typeIf _ _) ?_ (fun hmove => absurd rfl hmove) rfl
      (Desk.typeIf_processed _ _)
    intro hstatus
    rcases flow.desk.typeIf_status _ with hsame | ⟨-, hidle⟩
    · exact hsame.symm.trans hstatus
    · cases hidle.symm.trans hstatus
  | @unplannable _ _ error =>
    refine ends_quiet (Desk.tells_unplanned _ error) ?_ (fun hmove => absurd rfl hmove) rfl ?_ <;>
      rw [Desk.unplanned_eq]
    exact fun hstatus => nomatch hstatus
  | asked =>
    refine ends_quiet (flow.desk.tells_taken.trans (Desk.tells_enter _ _) (Or.inl ?_)) ?_
      (fun hmove => absurd rfl hmove) rfl ?_
    · rw [Desk.taken_eq]
    · rw [Desk.enter_eq]
      exact fun hstatus => nomatch hstatus
    · rw [Desk.enter_eq, Desk.taken_eq]
      rfl
  | executed =>
    refine ends_quiet (flow.desk.tells_taken.trans (Desk.tells_beginExecution _ _) (Or.inl ?_)) ?_
      (fun hmove => absurd rfl hmove) rfl ?_
    · rw [Desk.taken_eq]
    · rw [Desk.beginExecution_eq]
      exact fun hstatus => nomatch hstatus
    · rw [Desk.beginExecution_eq, Desk.taken_eq]
      rfl
  | resumed =>
    refine ends_quiet (Desk.tells_beginExecution _ _) ?_ (fun hmove => absurd rfl hmove) rfl ?_ <;>
      rw [Desk.beginExecution_eq]
    · exact fun hstatus => nomatch hstatus
    · rfl
  | reported hsettles => exact ends_of_settles rfl hsettles h.flight_pending rfl
  | executionAccepted =>
    refine ends_quiet (Desk.tells_nothing ?_ ?_) ?_ (fun _ => ?_) rfl ?_ <;>
      rw [Desk.recordFlight_eq]
    · rfl
    · rfl
    · exact id
    · rfl
    · rfl
  | @failed _ _ _ error bridged _ hcall hfailure hepoch =>
    have htells := Desk.tells_failWith flow.desk error bridged
    refine .failed ⟨?_, ?_, ?_, rfl, Or.inl ?_⟩ htells
      (h.isInProgress_of_failure hcall hfailure hepoch) ?_ ?_
    · rw [Desk.failWith_eq]
      exact fun hstatus => nomatch hstatus
    · rw [Desk.failWith_eq]
      exact fun _ => rfl
    · rw [Turn.notices_eq_of_tells htells]
      simp
    · rw [Desk.failWith_eq]
      rfl
    · rw [Desk.failWith_eq]
      rfl
    · rw [Desk.failWith_eq]
      rfl
  | approved =>
    refine ends_quiet (Desk.tells_enter _ _) ?_ ?_ (refresh?_approvalRereads _ _) ?_ <;>
      rw [Desk.enter_eq]
    · exact fun hstatus => nomatch hstatus
    · exact fun _ => rfl
    · rfl
  | claimed =>
    refine ends_quiet (Desk.tells_beginExecution _ _) ?_ (fun hmove => absurd rfl hmove) rfl ?_ <;>
      rw [Desk.beginExecution_eq]
    · exact fun hstatus => nomatch hstatus
    · rfl
  | settled hcall hstage hsettles =>
    refine ends_of_settles (delivered?_of_sent rfl hcall hstage) hsettles h.flight_pending ?_
    rw [Turn.refreshed, List.filterMap_append]
    exact List.append_nil _

end Flow

end DonationFlow
