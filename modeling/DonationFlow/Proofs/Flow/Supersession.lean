import DonationFlow.Proofs.Desk.Likeness
import DonationFlow.Proofs.Flow.Freshness

/-!
# Superseded calls are inert

In a fresh run a call of another epoch changes nothing that shows.  So, once an
edit has started over, it makes no difference how and when the calls before it
come to their ends: `Agrees` relates two runs that differ in that alone, with
the hashes of those calls hidden.
-/

namespace DonationFlow.Flow

section Origins

variable {settings : Settings} {flow after : Flow} {move : Move} {effects : List Effect}

theorem Step.epoch_le (step : Step settings flow move after effects) :
    flow.desk.epoch ≤ after.desk.epoch := by
  cases step with
  | declined | refused | passed | missed | approvalAccepted | superseded | abandoned =>
    exact Nat.le_refl _
  | restarted =>
    rw [Desk.typeIf_epoch, Desk.reset_eq]
    exact Nat.le_succ _
  | retyped => exact Nat.le_of_eq (Desk.typeIf_epoch _ _).symm
  | unplannable =>
    rw [Desk.unplanned_eq]
    exact Nat.le_succ _
  | asked =>
    rw [Desk.enter_eq, Desk.taken_eq]
    exact Nat.le_succ _
  | executed =>
    rw [Desk.beginExecution_eq, Desk.taken_eq]
    exact Nat.le_succ _
  | resumed | claimed =>
    rw [Desk.beginExecution_eq]
    exact Nat.le_refl _
  | reported hsettles | settled _ _ hsettles =>
    exact Nat.le_of_eq (settles_inFlight hsettles).1.symm
  | executionAccepted =>
    rw [Desk.recordFlight_eq]
    exact Nat.le_refl _
  | failed =>
    rw [Desk.failWith_eq]
    exact Nat.le_refl _
  | approved =>
    rw [Desk.enter_eq]
    exact Nat.le_refl _

theorem Step.next_le (step : Step settings flow move after effects) : flow.next ≤ after.next := by
  cases step with
  | declined | restarted | retyped | reported | missed | approvalAccepted | executionAccepted
  | failed | superseded | approved | claimed | settled | abandoned => exact Nat.le_refl _
  | refused | unplannable | asked | executed | passed | resumed => exact Nat.le_succ _

/-- A call under way was so before the step, with the same attempt, or is new and
for the intent as it stands. -/
theorem Step.origin (step : Step settings flow move after effects) (h : flow.Numbered)
    {call : OpenCall} (hcall : call ∈ after.calls) :
    (∃ old ∈ flow.calls, old.id = call.id ∧ old.attempt = call.attempt) ∨
      call.id = flow.next ∧ call.attempt.intent = after.desk.intent := by
  cases step with
  | declined | restarted | retyped | refused | unplannable | passed | reported | missed =>
    exact Or.inl ⟨call, hcall, rfl, rfl⟩
  | asked _ _ hattempt =>
    rcases mem_push_iff.1 hcall with hcall | rfl
    · exact Or.inl ⟨call, hcall, rfl, rfl⟩
    · rw [Desk.enter_eq, Desk.taken_eq]
      exact Or.inr ⟨rfl, hattempt.2.2⟩
  | executed _ _ hattempt =>
    rcases mem_push_iff.1 hcall with hcall | rfl
    · exact Or.inl ⟨call, hcall, rfl, rfl⟩
    · rw [Desk.beginExecution_eq, Desk.taken_eq]
      exact Or.inr ⟨rfl, hattempt.2.2⟩
  | resumed _ _ _ _ hattempt =>
    rcases mem_push_iff.1 hcall with hcall | rfl
    · exact Or.inl ⟨call, hcall, rfl, rfl⟩
    · rw [Desk.beginExecution_eq]
      exact Or.inr ⟨rfl, hattempt.2.2⟩
  | approvalAccepted hmoved | executionAccepted hmoved | approved hmoved | claimed hmoved =>
    have hmem := mem_of_find? hmoved
    rcases ((h.withDesk _).mem_advance_iff hmoved).1 hcall with rfl | ⟨hcall, -⟩
    · exact Or.inl ⟨_, hmem, rfl, rfl⟩
    · exact Or.inl ⟨call, hcall, rfl, rfl⟩
  | failed | superseded | settled | abandoned =>
    exact Or.inl ⟨call, (mem_drop_iff.1 hcall).1, rfl, rfl⟩

/-- What is in flight changes only if an edit starts over, an outcome settles, or
the executor accepts the execution of a current call. -/
theorem Step.inFlight_cases (step : Step settings flow move after effects) :
    after.desk.inFlight = flow.desk.inFlight ∨
    (Turn.StartsOver ⟨flow, move, after, effects⟩ ∧ after.desk.inFlight = none) ∨
    (∃ hash outcome settled, Desk.Settles flow.desk hash outcome after.desk settled) ∨
    ∃ id call hash, flow.find? id = some call ∧ call.stage = .executing ∧
      flow.desk.epoch = call.attempt.epoch ∧ move = .submitted id (.ok hash) ∧
      after.desk.inFlight = some (Desk.flightOf settings call.attempt hash) := by
  cases step with
  | declined | refused | passed | missed | approvalAccepted | superseded | abandoned =>
    exact Or.inl rfl
  | restarted _ _ hedit =>
    refine Or.inr (Or.inl ⟨⟨_, _, _, rfl, hedit⟩, ?_⟩)
    rw [Desk.typeIf_inFlight, Desk.reset_eq]
  | retyped => exact Or.inl (Desk.typeIf_inFlight _ _)
  | unplannable =>
    left
    rw [Desk.unplanned_eq]
  | asked =>
    left
    rw [Desk.enter_eq, Desk.taken_eq]
    rfl
  | executed =>
    left
    rw [Desk.beginExecution_eq, Desk.taken_eq]
    rfl
  | resumed | claimed =>
    left
    rw [Desk.beginExecution_eq]
    rfl
  | reported hsettles | settled _ _ hsettles =>
    exact Or.inr (Or.inr (Or.inl ⟨_, _, _, hsettles⟩))
  | @executionAccepted id call hash hcall hstage =>
    rw [Desk.recordFlight_eq]
    by_cases hepoch : flow.desk.epoch = call.attempt.epoch
    · exact Or.inr (Or.inr (Or.inr ⟨id, call, hash, hcall, hstage, hepoch, rfl, if_pos hepoch⟩))
    · exact Or.inl (if_neg hepoch)
  | failed =>
    left
    rw [Desk.failWith_eq]
    rfl
  | approved =>
    left
    rw [Desk.enter_eq]
    rfl

/-- An execution comes to be in flight only as the executor accepts it from a
current call, and is recorded as that of the call. -/
theorem Step.flight (step : Step settings flow move after effects) {flight : InFlight}
    (hflight : after.desk.inFlight = some flight) :
    flow.desk.inFlight = some flight ∨
      ∃ id call, flow.find? id = some call ∧ call.stage = .executing ∧
        flow.desk.epoch = call.attempt.epoch ∧ move = .submitted id (.ok flight.hash) ∧
        flight = Desk.flightOf settings call.attempt flight.hash := by
  rcases step.inFlight_cases with hsame | ⟨-, hnone⟩ | ⟨hash, outcome, settled, hsettles⟩ |
    ⟨id, call, hash, hcall, hstage, hepoch, rfl, hsome⟩
  · exact Or.inl (hsame.symm.trans hflight)
  · cases hnone.symm.trans hflight
  · obtain ⟨-, ⟨-, hsame⟩ | ⟨-, -, hnone⟩⟩ := settles_inFlight hsettles
    · exact Or.inl (hsame.symm.trans hflight)
    · cases hnone.symm.trans hflight
  · obtain rfl := Option.some.inj (hsome.symm.trans hflight)
    exact Or.inr ⟨id, call, hcall, hstage, hepoch, rfl, rfl⟩

end Origins

/-! ## Two runs -/

/-- Whether the move is left when those of the calls before `limit` are not
looked at. -/
def isOther (limit : Nat) (move : Move) : Bool :=
  match move.call? with
  | some id => limit ≤ id
  | none => true

/-- All moves but those of the calls before `limit`. -/
def others (limit : Nat) (moves : List Move) : List Move := moves.filter (isOther limit)

/-- The flows differ at most in the calls before `limit` and in what the table
says of hidden hashes. -/
structure Agrees (limit : Nat) (hidden : TxHash → Prop) (flow other : Flow) : Prop where
  desk : Desk.Like hidden flow.desk other.desk
  calls : flow.calls.filter (limit ≤ ·.id) = other.calls.filter (limit ≤ ·.id)
  next : flow.next = other.next
  reserved : limit ≤ flow.next

section Agreement

variable {settings : Settings} {limit : Nat} {hidden : TxHash → Prop} {flow other : Flow}

theorem Agrees.refl (h : limit ≤ flow.next) : Agrees limit hidden flow flow :=
  ⟨Desk.Like.refl hidden flow.desk, rfl, rfl, h⟩

theorem Agrees.find? (h : Agrees limit hidden flow other) {id : Nat} (hid : limit ≤ id) :
    flow.find? id = other.find? id := by
  have hrecent : ∀ calls : List OpenCall,
      calls.find? (·.id = id) = (calls.filter (limit ≤ ·.id)).find? (·.id = id) := by
    intro calls
    rw [List.find?_filter]
    congr 1
    funext call
    by_cases hcall : call.id = id
    · simp [hcall, hid]
    · simp [hcall]
  rw [Flow.find?, Flow.find?, hrecent flow.calls, hrecent other.calls, h.calls]

theorem Agrees.withDesk (h : Agrees limit hidden flow other) {desk otherDesk : Desk}
    (hdesk : Desk.Like hidden desk otherDesk) :
    Agrees limit hidden { flow with desk } { other with desk := otherDesk } :=
  ⟨hdesk, h.calls, h.next, h.reserved⟩

theorem Agrees.skip (h : Agrees limit hidden flow other) :
    Agrees limit hidden { flow with next := flow.next + 1 }
      { other with next := other.next + 1 } :=
  ⟨h.desk, h.calls, congrArg (· + 1) h.next, Nat.le_succ_of_le h.reserved⟩

theorem Agrees.push (h : Agrees limit hidden flow other) (attempt : Attempt) (stage : Stage) :
    Agrees limit hidden (flow.push attempt stage) (other.push attempt stage) where
  desk := h.desk
  calls := by
    simp only [Flow.push, List.filter_append, h.calls, h.next]
  next := congrArg (· + 1) h.next
  reserved := Nat.le_succ_of_le h.reserved

theorem Agrees.advance (h : Agrees limit hidden flow other) (id : Nat) (stage : Stage) :
    Agrees limit hidden (flow.advance id stage) (other.advance id stage) where
  desk := h.desk
  calls := by
    have hids : ((fun call : OpenCall => decide (limit ≤ call.id)) ∘
        fun call => if call.id = id then { call with stage } else call) =
        fun call => decide (limit ≤ call.id) := by
      funext call
      simp only [Function.comp]
      split <;> rfl
    simp only [Flow.advance, List.filter_map, hids, h.calls]
  next := h.next
  reserved := h.reserved

theorem Agrees.drop (h : Agrees limit hidden flow other) (id : Nat) :
    Agrees limit hidden (flow.drop id) (other.drop id) where
  desk := h.desk
  calls := by
    simp only [Flow.drop, List.filter_filter, Bool.and_comm (decide (limit ≤ _))]
    rw [← List.filter_filter, ← List.filter_filter, h.calls]
  next := h.next
  reserved := h.reserved

theorem Agrees.fail (h : Agrees limit hidden flow other) (call : OpenCall) (error : FlowError)
    (bridged : Bool) :
    Agrees limit hidden (flow.fail call error bridged).1 (other.fail call error bridged).1 := by
  have hepoch : flow.desk.epoch = other.desk.epoch := by
    rw [h.desk.shown]
    rfl
  rw [Flow.fail, Flow.fail, Desk.fail_eq, Desk.fail_eq, hepoch]
  by_cases hcurrent : other.desk.epoch = call.attempt.epoch
  · rw [if_pos hcurrent, if_pos hcurrent]
    apply Agrees.drop
    apply h.withDesk
    exact h.desk.map (·.failWith error bridged) fun desk table =>
      Desk.failWith_withProcessed desk table error bridged
  · rw [if_neg hcurrent, if_neg hcurrent]
    exact h.drop call.id

/-- Moves that are the same on both sides lead to flows that agree again, as
long as no hidden hash is in flight. -/
theorem Agrees.step (h : Agrees limit hidden flow other) {move : Move}
    (hmove : isOther limit move = true)
    (hflight : ∀ flight, other.desk.inFlight = some flight → ¬hidden flight.hash) :
    Agrees limit hidden (flow.step settings move).1 (other.step settings move).1 := by
  have hforeign : ∀ hash, hidden hash →
      ∀ flight, other.desk.inFlight = some flight → flight.hash ≠ hash := by
    rintro hash hhidden flight hsome rfl
    exact hflight flight hsome hhidden
  have hepoch : flow.desk.epoch = other.desk.epoch := by
    rw [h.desk.shown]
    rfl
  have hstatus : flow.desk.status = other.desk.status := by
    rw [h.desk.shown]
    rfl
  cases move with
  | edit account edit =>
    have hedit := Desk.edit_withProcessed other.desk flow.desk.processed edit
    rw [← h.desk.shown] at hedit
    simp only [Flow.step, Flow.edit, hedit]
    cases hother : other.desk.edit edit with
    | error error => exact h
    | ok result =>
      obtain ⟨desk, startsOver⟩ := result
      obtain ⟨action, chain, token, -, -, rfl⟩ := Desk.edit_eq_ok_iff.1 hother
      apply h.withDesk
      apply h.desk.withProcessed
      rw [Desk.typeIf_processed]
      cases startsOver with
      | true => rw [if_pos rfl, Desk.reset_eq]
      | false => rfl
  | submit cache account =>
    have hsubmit := Desk.submit_withProcessed other.desk flow.desk.processed settings cache account
    rw [← h.desk.shown] at hsubmit
    simp only [Flow.step, Flow.submit, hsubmit]
    have hdesk := h.desk.map (fun desk => (desk.submit settings cache account).1)
      fun desk table =>
        congrArg Prod.fst (Desk.submit_withProcessed desk table settings cache account)
    rw [hsubmit] at hdesk
    generalize other.desk.submit settings cache account = result at hdesk
    obtain ⟨desk, error | ⟨attempt, approval⟩⟩ := result
    · exact (h.withDesk hdesk).skip
    · cases approval with
      | some approval => exact (h.withDesk hdesk).push attempt .approving
      | none => exact (h.withDesk hdesk).push attempt .executing
  | tick cache account =>
    have hresume := Desk.resume_withProcessed other.desk flow.desk.processed settings cache account
    rw [← h.desk.shown] at hresume
    simp only [Flow.step, Flow.tick, hresume]
    cases hother : other.desk.resume settings cache account with
    | error error => exact h.skip
    | ok taken =>
      cases taken with
      | none => exact h.skip
      | some result =>
        apply Agrees.push
        apply h.withDesk
        apply h.desk.withProcessed
        exact Desk.processed_of_resume hother
  | report hash confirmed =>
    exact h.withDesk (h.desk.settle hash (.ok confirmed) (hforeign hash))
  | submitted id outcome =>
    have hid : limit ≤ id := of_decide_eq_true hmove
    simp only [Flow.step, submitted, h.find? hid]
    cases other.find? id with
    | none => exact h
    | some call =>
      dsimp only
      split
      · exact h.advance id _
      · exact h.fail call _ false
      · apply Agrees.advance
        apply h.withDesk
        exact h.desk.map (·.recordFlight settings call.attempt _) fun desk table =>
          Desk.recordFlight_withProcessed desk table settings call.attempt _
      · exact h.fail call _ _
      · exact h
  | mined id outcome =>
    have hid : limit ≤ id := of_decide_eq_true hmove
    simp only [Flow.step, mined, h.find? hid]
    cases other.find? id with
    | none => exact h
    | some call =>
      dsimp only
      split
      · split
        · exact h.fail call _ false
        · exact h.fail call _ false
        · simp only [Desk.approve, hepoch]
          by_cases hcurrent : other.desk.epoch = call.attempt.epoch
          · rw [if_pos hcurrent, if_pos hcurrent]
            apply Agrees.advance
            apply h.withDesk
            exact h.desk.map (·.enter .approved) fun desk table =>
              Desk.enter_withProcessed desk table .approved
          · rw [if_neg hcurrent, if_neg hcurrent]
            exact h.drop id
      · apply Agrees.drop
        exact h.withDesk (h.desk.settle _ outcome (hforeign _))
      · exact h
  | proceed id =>
    have hid : limit ≤ id := of_decide_eq_true hmove
    simp only [Flow.step, proceed, h.find? hid]
    cases other.find? id with
    | none => exact h
    | some call =>
      dsimp only
      split
      · simp only [Desk.claim, hepoch, hstatus]
        by_cases hclaim : other.desk.epoch = call.attempt.epoch ∧ other.desk.status = .approved
        · rw [if_pos hclaim, if_pos hclaim]
          apply Agrees.advance
          apply h.withDesk
          exact h.desk.map (·.beginExecution call.attempt.plan) fun desk table =>
            Desk.beginExecution_withProcessed desk table call.attempt.plan
        · rw [if_neg hclaim, if_neg hclaim]
          exact h.drop id
      · exact h
  | abandon id => exact h.drop id

/-- What becomes of a call before `limit` is not seen from `limit` on. -/
theorem recent_drop (flow : Flow) {id : Nat} (hid : id < limit) :
    (flow.drop id).calls.filter (limit ≤ ·.id) = flow.calls.filter (limit ≤ ·.id) := by
  simp only [Flow.drop, List.filter_filter]
  apply List.filter_congr
  intro call _
  by_cases hlimit : limit ≤ call.id
  · have hne : call.id ≠ id := by omega
    simp [hlimit, hne]
  · simp [hlimit]

theorem recent_advance (flow : Flow) {id : Nat} (hid : id < limit) (stage : Stage) :
    (flow.advance id stage).calls.filter (limit ≤ ·.id) = flow.calls.filter (limit ≤ ·.id) := by
  simp only [Flow.advance]
  induction flow.calls with
  | nil => rfl
  | cons call calls ih =>
    rw [List.map_cons, List.filter_cons, List.filter_cons, ih]
    by_cases hcall : call.id = id
    · simp [hcall, Nat.not_le_of_lt hid]
    · simp [hcall]

/-- A move of a call before `limit` that is inert cannot be told from no move,
if the hash of that call is hidden. -/
theorem Agrees.inert (h : Agrees limit hidden flow other) {call : OpenCall} {move : Move}
    {after : Flow} {effects : List Effect} (hinert : Inert flow call move after effects)
    (hid : call.id < limit) (hhidden : ∀ hash, call.stage = .sent hash → hidden hash) :
    Agrees limit hidden after other where
  desk := by
    rcases hinert.desk with heq | ⟨hash, hstage, -, heq⟩ <;> rw [heq]
    · exact h.desk
    · exact h.desk.put_left (hhidden hash hstage) false
  calls := by
    rw [← h.calls]
    rcases hinert.calls with heq | heq | ⟨hash, stage, -, -, heq⟩ <;> rw [heq]
    · exact recent_drop flow hid
    · exact recent_advance flow hid stage
  next := hinert.next.trans h.next
  reserved := hinert.next ▸ h.reserved

/-- Once an edit has started over: the calls before `limit` are stale, and
what is in flight is none of theirs. -/
structure Sealed (limit : Nat) (given : List (Nat × TxHash)) (flow : Flow) : Prop where
  owned : flow.Owned
  traced : Traced given flow
  reserved : limit ≤ flow.next
  stale : ∀ call ∈ flow.calls, call.id < limit → call.attempt.epoch < flow.desk.epoch
  flight : ∀ flight, flow.desk.inFlight = some flight →
    ∃ id, limit ≤ id ∧ (id, flight.hash) ∈ given

theorem Sealed.step {given : List (Nat × TxHash)} (h : Sealed limit given flow) (move : Move)
    (hgiven : ∀ pair, (flow.turn settings move).given? = some pair → pair ∈ given) :
    Sealed limit given (flow.step settings move).1 := by
  have hstep := steps settings flow move
  refine ⟨hstep.owned h.owned, hstep.traced h.owned h.traced hgiven,
    Nat.le_trans h.reserved hstep.next_le, ?_, ?_⟩
  · intro call hcall hid
    have hepoch := hstep.epoch_le
    rcases hstep.origin h.owned.numbered hcall with ⟨old, hold, hsame, hattempt⟩ | ⟨hnew, -⟩
    · have hstale := h.stale old hold (by omega)
      rw [← hattempt]
      omega
    · have hreserved := h.reserved
      omega
  · intro flight hsome
    rcases hstep.flight hsome with hflight | ⟨id, call, hcall, hstage, hepoch, rfl, -⟩
    · exact h.flight flight hflight
    · refine ⟨id, ?_, hgiven _ (given?_of_submitted hcall (Or.inr hstage))⟩
      by_contra hlt
      have hstale := h.stale call (mem_of_find? hcall) (by rw [id_of_find? hcall]; omega)
      omega

/-- The hashes that were given to calls before `limit`. -/
def hiddenBy (limit : Nat) (given : List (Nat × TxHash)) (hash : TxHash) : Prop :=
  ∃ id < limit, (id, hash) ∈ given

theorem Sealed.agrees_reached {given : List (Nat × TxHash)} (hsealed : Sealed limit given flow)
    (hnames : ∀ hash left right, (left, hash) ∈ given → (right, hash) ∈ given → left = right)
    (h : Agrees limit (hiddenBy limit given) flow other)
    (moves : List Move)
    (hgiven : ∀ turn ∈ flow.history settings moves, ∀ pair, turn.given? = some pair →
      pair ∈ given) :
    Agrees limit (hiddenBy limit given) (flow.reached settings moves)
      (other.reached settings (others limit moves)) := by
  induction moves generalizing flow other with
  | nil => exact h
  | cons move moves ih =>
    have hpair := hgiven _ List.mem_cons_self
    have hafter := hsealed.step move hpair
    have hlater : ∀ turn ∈ (flow.step settings move).1.history settings moves, ∀ pair,
        turn.given? = some pair → pair ∈ given :=
      fun turn hturn => hgiven turn (List.mem_cons_of_mem _ hturn)
    have hflight : ∀ flight, flow.desk.inFlight = some flight →
        ¬hiddenBy limit given flight.hash := by
      rintro flight hsome ⟨id, hid, hmem⟩
      obtain ⟨owner, howner, hown⟩ := hsealed.flight flight hsome
      have heq := hnames _ _ _ hmem hown
      omega
    cases hother : isOther limit move with
    | true =>
      rw [others, List.filter_cons_of_pos hother]
      apply ih hafter _ hlater
      apply h.step hother
      rw [← show flow.desk.inFlight = other.desk.inFlight by rw [h.desk.shown]; rfl]
      exact hflight
    | false =>
      -- Only the run on the left makes this move.
      rw [others, List.filter_cons_of_neg (by rw [hother]; exact Bool.false_ne_true)]
      apply ih hafter _ hlater
      obtain ⟨id, hcall?, hid⟩ : ∃ id, move.call? = some id ∧ id < limit := by
        unfold isOther at hother
        split at hother
        · rename_i id hcall?
          exact ⟨id, hcall?, Nat.lt_of_not_le (of_decide_eq_false hother)⟩
        · cases hother
      have hstep := steps settings flow move
      cases hcall : flow.find? id with
      | none =>
        have hgone : (flow.step settings move).1 = flow ∨
            (flow.step settings move).1 = flow.drop id := by
          cases move with
          | edit | submit | tick | report => cases hcall?
          | submitted | mined | proceed =>
            cases hcall?
            left
            simp only [Flow.step, submitted, mined, proceed, hcall]
          | abandon =>
            cases hcall?
            exact Or.inr rfl
        rcases hgone with heq | heq <;> rw [heq]
        · exact h
        · exact ⟨h.desk, (recent_drop flow hid).trans h.calls, h.next, h.reserved⟩
      | some call =>
        have hmem := mem_of_find? hcall
        have hcallId := id_of_find? hcall
        have hhidden : ∀ hash, call.stage = .sent hash → hiddenBy limit given hash := by
          intro hash hstage
          exact ⟨call.id, by omega, hsealed.traced.sent call hmem hash hstage⟩
        have hstale := hsealed.stale call hmem (by omega)
        refine h.inert (hstep.inert hcall? hcall (by omega) ?_) (by omega) hhidden
        rintro hash hstage flight hsome rfl
        exact hflight flight hsome (hhidden _ hstage)

/-- An edit that starts over seals off all the calls under way. -/
theorem sealed_of_edit {given : List (Nat × TxHash)} (howned : flow.Owned)
    (h : Traced given flow) {account : Option Address} {edit : Edit} {desk : Desk}
    (hedit : flow.desk.edit edit = .ok (desk, true)) :
    Sealed flow.next given (flow.step settings (.edit account edit)).1 := by
  have hstep := steps settings flow (.edit account edit)
  have hafter : (flow.step settings (.edit account edit)).1 = { flow with desk } := by
    simp only [Flow.step, Flow.edit, hedit]
  have htraced := hstep.traced howned h (by
    intro pair hpair
    cases hpair)
  have howned' := hstep.owned howned
  rw [hafter] at htraced howned' ⊢
  obtain ⟨action, chain, token, -, -, rfl⟩ := Desk.edit_eq_ok_iff.1 hedit
  refine ⟨howned', htraced, Nat.le_refl _, ?_, ?_⟩
  · intro call hcall _
    have hepoch := howned.epoch_le call hcall
    rw [Desk.typeIf_epoch, if_pos rfl, Desk.reset_eq]
    exact Nat.lt_succ_of_le hepoch
  · intro flight hsome
    rw [Desk.typeIf_inFlight, if_pos rfl, Desk.reset_eq] at hsome
    cases hsome

end Agreement

/-- In a fresh run, a move of a call whose epoch is gone changes nothing on the
desk but the entry of its own hash in the table.  So two fresh runs that agree
up to an edit that starts over, and after it in all but the moves of the calls
under way at that edit, show the same. -/
theorem superseded_calls_inert (settings : Settings) :
    (∀ moves, Fresh settings moves →
      ∀ turn ∈ ({} : Flow).history settings moves, ∀ id call,
        turn.move.call? = some id → turn.before.find? id = some call →
        call.attempt.epoch ≠ turn.before.desk.epoch →
        (turn.after.desk = turn.before.desk ∨ ∃ hash, call.stage = .sent hash ∧
          turn.before.desk.processed.get? hash = none ∧
          turn.after.desk = { turn.before.desk with
            processed := turn.before.desk.processed.put hash false }) ∧
        ∀ effect ∈ turn.effects, Effect.isOwn id effect = true) ∧
    (∀ past account edit desk left right,
      (({} : Flow).reached settings past).desk.edit edit = .ok (desk, true) →
      Fresh settings (past ++ .edit account edit :: left) →
      Fresh settings (past ++ .edit account edit :: right) →
      others (({} : Flow).reached settings past).next left =
        others (({} : Flow).reached settings past).next right →
      let one := (({} : Flow).reached settings (past ++ .edit account edit :: left)).desk
      let two := (({} : Flow).reached settings (past ++ .edit account edit :: right)).desk
      one.intent = two.intent ∧ one.status = two.status ∧ one.bridge = two.bridge ∧
        one.lastError = two.lastError ∧ one.log = two.log) := by
  constructor
  · intro moves hfresh turn hturn id call hmove hcall hstale
    obtain ⟨early, move, late, rfl, rfl⟩ := exists_of_mem_history hturn
    have htraced := traced_history settings early (move :: late)
    have hinert := (steps settings (({} : Flow).reached settings early) move).inert hmove hcall
      hstale (fun hash hstage => htraced.foreign (fun hash left right => hfresh.eq_of_given)
        (mem_of_find? hcall) hstale hstage)
    rw [← id_of_find? hcall]
    exact ⟨hinert.desk, hinert.effects⟩
  · intro past account edit desk left right hedit hleft hright hothers
    have hcommon : ∀ moves, Fresh settings (past ++ .edit account edit :: moves) →
        ∃ hidden, Desk.Like hidden
          (({} : Flow).reached settings (past ++ .edit account edit :: moves)).desk
          (((({} : Flow).reached settings past).step settings (.edit account edit)).1.reached
            settings (others (({} : Flow).reached settings past).next moves)).desk := by
      intro moves hfresh
      have hsealed : Sealed (({} : Flow).reached settings past).next
          (givens (({} : Flow).history settings (past ++ .edit account edit :: moves)))
          ((({} : Flow).reached settings past).step settings (.edit account edit)).1 :=
        sealed_of_edit (owned_reached settings past)
          (traced_history settings past (.edit account edit :: moves)) hedit
      rw [reached_append, reached_cons]
      refine ⟨_, (hsealed.agrees_reached (fun hash left right => hfresh.eq_of_given)
        (Agrees.refl hsealed.reserved) moves ?_).desk⟩
      intro turn hturn pair hpair
      apply mem_givens _ hpair
      rw [history_append]
      exact List.mem_append_right _ (List.mem_cons_of_mem _ hturn)
    obtain ⟨_, hone⟩ := hcommon left hleft
    obtain ⟨_, htwo⟩ := hcommon right hright
    rw [hothers] at hone
    intro one two
    have hone : one = _ := hone.shown
    have htwo : two = _ := htwo.shown
    rw [hone, htwo]
    exact ⟨rfl, rfl, rfl, rfl, rfl⟩

/-- A submission whose execution was accepted. -/
def acceptedRun : List Move :=
  [.edit none { token := some "ETH", amount := some "1" }, .submit {} (some default),
    .submitted 0 (.ok trialHash)]

theorem superseded_calls_inert_of_restart :
    let restart : Move := .edit none { action := some .stake }
    let flow := ({} : Flow).reached trialSettings (acceptedRun ++ [restart])
    let turn := flow.turn trialSettings (.mined 0 (.ok true))
    Fresh trialSettings (acceptedRun ++ [restart, .mined 0 (.ok true)]) ∧
      (∃ call, flow.find? 0 = some call ∧ call.attempt.epoch ≠ flow.desk.epoch) ∧
      (∀ effect ∈ turn.effects, Effect.isOwn 0 effect = true) ∧
      turn.after.desk.log = flow.desk.log := by
  intro restart flow turn
  have hfresh : Fresh trialSettings (acceptedRun ++ [restart, .mined 0 (.ok true)]) := by
    show List.Nodup _
    decide +kernel
  have hplain : Fresh trialSettings (acceptedRun ++ [restart]) := by
    show List.Nodup _
    decide +kernel
  have hcall : (flow.find? 0).map (·.attempt.epoch) = some 2 := by decide +kernel
  have hepoch : flow.desk.epoch = 3 := by decide +kernel
  obtain ⟨call, hfound, hcurrent⟩ := Option.map_eq_some_iff.1 hcall
  have hstale : call.attempt.epoch ≠ flow.desk.epoch := by
    rw [hcurrent, hepoch]
    decide
  obtain ⟨desk, hedit⟩ : ∃ desk, (({} : Flow).reached trialSettings acceptedRun).desk.edit
      { action := some .stake } = .ok (desk, true) := ⟨_, rfl⟩
  obtain ⟨hinert, hsame⟩ := superseded_calls_inert trialSettings
  refine ⟨hfresh, ⟨call, hfound, hstale⟩, ?_, ?_⟩
  · have hturn : turn ∈ ({} : Flow).history trialSettings
        (acceptedRun ++ [restart, .mined 0 (.ok true)]) := by
      rw [List.append_cons, history_append]
      exact List.mem_append_right _ List.mem_cons_self
    exact (hinert _ hfresh turn hturn 0 call rfl hfound hstale).2
  · obtain ⟨-, -, -, -, hlog⟩ := hsame acceptedRun none { action := some .stake } desk
      [.mined 0 (.ok true)] [] hedit hfresh hplain rfl
    exact hlog

end DonationFlow.Flow
