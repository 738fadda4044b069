import DonationFlow.Proofs.Flow.Endings

/-!
# Fresh hashes

A run is fresh if the executor never gives one hash to two calls.  In a fresh
run the execution in flight is known by its hash: no call of another epoch can
hold it.  `Traced` is what carries this, whether or not the run is fresh.
-/

namespace DonationFlow.Flow

/-- The hashes that the executor gave in the turns, each with the call it was
given to. -/
def givens (turns : List Turn) : List (Nat × TxHash) := turns.filterMap (·.given?)

/-- The executor never gives the same hash to two accepted calls. -/
def Fresh (settings : Settings) (moves : List Move) : Prop :=
  ((givens (({} : Flow).history settings moves)).map (·.2)).Nodup

/-- What a call holds was given to it, and what is in flight was given to a call
that is not stale. -/
structure Traced (given : List (Nat × TxHash)) (flow : Flow) : Prop where
  sent : ∀ call ∈ flow.calls, ∀ hash, call.stage = .sent hash → (call.id, hash) ∈ given
  flight : ∀ flight, flow.desk.inFlight = some flight →
    ∃ id, (id, flight.hash) ∈ given ∧ id < flow.next ∧
      ∀ call ∈ flow.calls, call.id = id → call.attempt.epoch = flow.desk.epoch

section Tracing

variable {settings : Settings} {given : List (Nat × TxHash)} {flow : Flow}

theorem Traced.mono (h : Traced given flow) {more : List (Nat × TxHash)}
    (hmore : ∀ pair ∈ given, pair ∈ more) : Traced more flow where
  sent := fun call hcall hash hstage => hmore _ (h.sent call hcall hash hstage)
  flight := by
    intro flight hsome
    obtain ⟨id, hgiven, hcurrent⟩ := h.flight flight hsome
    exact ⟨id, hmore _ hgiven, hcurrent⟩

theorem Traced.withDesk (h : Traced given flow) {desk : Desk}
    (hflight : desk.inFlight = none ∨
      desk.inFlight = flow.desk.inFlight ∧ desk.epoch = flow.desk.epoch) :
    Traced given { flow with desk } where
  sent := h.sent
  flight := by
    intro flight hsome
    rcases hflight with hnone | ⟨hsame, hepoch⟩
    · cases hnone.symm.trans hsome
    · obtain ⟨id, hgiven, hbelow, hcurrent⟩ := h.flight flight (hsame.symm.trans hsome)
      exact ⟨id, hgiven, hbelow, fun call hcall hid => (hcurrent call hcall hid).trans hepoch.symm⟩

theorem Traced.skip (h : Traced given flow) :
    Traced given { flow with next := flow.next + 1 } where
  sent := h.sent
  flight := by
    intro flight hsome
    obtain ⟨id, hgiven, hbelow, hcurrent⟩ := h.flight flight hsome
    exact ⟨id, hgiven, Nat.lt_succ_of_lt hbelow, hcurrent⟩

theorem Traced.drop (h : Traced given flow) (id : Nat) : Traced given (flow.drop id) where
  sent := fun call hcall => h.sent call (mem_drop_iff.1 hcall).1
  flight := by
    intro flight hsome
    obtain ⟨owner, hgiven, hbelow, hcurrent⟩ := h.flight flight hsome
    exact ⟨owner, hgiven, hbelow, fun call hcall => hcurrent call (mem_drop_iff.1 hcall).1⟩

theorem Traced.push (h : Traced given flow) {attempt : Attempt} {stage : Stage}
    (hstage : ∀ hash, stage ≠ .sent hash) : Traced given (flow.push attempt stage) where
  sent := by
    intro call hcall hash hsent
    rcases mem_push_iff.1 hcall with hcall | rfl
    · exact h.sent call hcall hash hsent
    · exact absurd hsent (hstage hash)
  flight := by
    intro flight hsome
    obtain ⟨id, hgiven, hbelow, hcurrent⟩ := h.flight flight hsome
    refine ⟨id, hgiven, Nat.lt_succ_of_lt hbelow, ?_⟩
    intro call hcall hid
    rcases mem_push_iff.1 hcall with hcall | rfl
    · exact hcurrent call hcall hid
    · exact absurd hid (Nat.ne_of_gt hbelow)

theorem Traced.advance (h : Traced given flow) (hnumbered : flow.Numbered) {id : Nat}
    {moved : OpenCall} {stage : Stage} (hmoved : flow.find? id = some moved)
    (hstage : ∀ hash, stage = .sent hash → (id, hash) ∈ given) :
    Traced given (flow.advance id stage) where
  sent := by
    intro call hcall hash hsent
    rcases (hnumbered.mem_advance_iff hmoved).1 hcall with rfl | ⟨hcall, -⟩
    · have hid : moved.id = id := id_of_find? hmoved
      show (moved.id, hash) ∈ given
      rw [hid]
      exact hstage hash hsent
    · exact h.sent call hcall hash hsent
  flight := by
    intro flight hsome
    obtain ⟨owner, hgiven, hbelow, hcurrent⟩ := h.flight flight hsome
    refine ⟨owner, hgiven, hbelow, ?_⟩
    intro call hcall hid
    rcases (hnumbered.mem_advance_iff hmoved).1 hcall with rfl | ⟨hcall, -⟩
    · exact hcurrent moved (mem_of_find? hmoved) hid
    · exact hcurrent call hcall hid

theorem given?_of_submitted {after : Flow} {effects : List Effect} {id : Nat} {call : OpenCall}
    {hash : TxHash} (hcall : flow.find? id = some call)
    (hstage : call.stage = .approving ∨ call.stage = .executing) :
    Turn.given? ⟨flow, .submitted id (.ok hash), after, effects⟩ = some (id, hash) := by
  have hawaits : call.stage.awaits (.submitted id (.ok hash)) = true := by
    rcases hstage with hstage | hstage <;> rw [hstage] <;> rfl
  simp [Turn.given?, hcall, hawaits]

theorem Step.traced {after : Flow} {move : Move} {effects : List Effect}
    (step : Step settings flow move after effects) (howned : flow.Owned) (h : Traced given flow)
    (hgiven : ∀ pair, Turn.given? ⟨flow, move, after, effects⟩ = some pair → pair ∈ given) :
    Traced given after := by
  have hnumbered := howned.numbered
  cases step with
  | declined | missed => exact h
  | restarted =>
    refine h.withDesk (Or.inl ?_)
    rw [Desk.typeIf_inFlight, Desk.reset_eq]
  | retyped => exact h.withDesk (Or.inr ⟨Desk.typeIf_inFlight _ _, Desk.typeIf_epoch _ _⟩)
  | refused | passed => exact h.skip
  | @unplannable _ _ error hstatus =>
    have hrenewed : Traced given { flow with desk := flow.desk.unplanned error } := by
      rw [Desk.unplanned_eq]
      exact h.withDesk (Or.inl (howned.free_of_idle hstatus))
    exact hrenewed.skip
  | asked hstatus =>
    rw [Desk.enter_eq, Desk.taken_eq]
    apply Traced.push
    · exact h.withDesk (Or.inl (howned.free_of_idle hstatus))
    · simp
  | executed hstatus =>
    rw [Desk.beginExecution_eq, Desk.taken_eq]
    apply Traced.push
    · exact h.withDesk (Or.inl (howned.free_of_idle hstatus))
    · simp
  | resumed _ hflight =>
    rw [Desk.beginExecution_eq]
    apply Traced.push
    · exact h.withDesk (Or.inl hflight)
    · simp
  | reported hsettles =>
    obtain ⟨hepoch, ⟨-, hflight⟩ | ⟨-, -, hflight⟩⟩ := settles_inFlight hsettles
    · exact h.withDesk (Or.inr ⟨hflight, hepoch⟩)
    · exact h.withDesk (Or.inl hflight)
  | approvalAccepted hcall => exact h.advance hnumbered hcall (by simp)
  | @executionAccepted id call hash hcall hstage =>
    have hpair : (id, hash) ∈ given :=
      hgiven _ (given?_of_submitted hcall (Or.inr hstage))
    have hadvanced : Traced given (flow.advance id (.sent hash)) :=
      h.advance hnumbered hcall (by rintro other ⟨⟩; exact hpair)
    rw [Desk.recordFlight_eq]
    by_cases hepoch : flow.desk.epoch = call.attempt.epoch
    · refine ⟨hadvanced.sent, ?_⟩
      intro flight hsome
      have hsome : (if flow.desk.epoch = call.attempt.epoch then
          some (Desk.flightOf settings call.attempt hash) else flow.desk.inFlight) = some flight :=
        hsome
      rw [if_pos hepoch] at hsome
      cases hsome
      have hbelow := hnumbered.below call (mem_of_find? hcall)
      rw [id_of_find? hcall] at hbelow
      refine ⟨id, hpair, hbelow, ?_⟩
      intro other hother hid
      rcases (hnumbered.mem_advance_iff hcall).1 hother with rfl | ⟨-, hne⟩
      · exact hepoch.symm
      · exact absurd hid hne
    · rw [if_neg hepoch]
      exact hadvanced
  | failed =>
    rw [Desk.failWith_eq]
    apply Traced.drop
    exact h.withDesk (Or.inr ⟨rfl, rfl⟩)
  | superseded | abandoned => exact h.drop _
  | @approved id _ _ hcall =>
    have hadvanced : Traced given (flow.advance id .approved) :=
      h.advance hnumbered hcall (by simp)
    rw [Desk.enter_eq]
    exact hadvanced.withDesk (Or.inr ⟨rfl, rfl⟩)
  | @claimed id _ hcall =>
    have hadvanced : Traced given (flow.advance id .executing) :=
      h.advance hnumbered hcall (by simp)
    rw [Desk.beginExecution_eq]
    exact hadvanced.withDesk (Or.inr ⟨rfl, rfl⟩)
  | settled _ _ hsettles =>
    refine Traced.drop (h.withDesk ?_) _
    obtain ⟨hepoch, ⟨-, hflight⟩ | ⟨-, -, hflight⟩⟩ := settles_inFlight hsettles
    · exact Or.inr ⟨hflight, hepoch⟩
    · exact Or.inl hflight

theorem traced_start (given : List (Nat × TxHash)) : Traced given {} where
  sent := fun _ hcall => nomatch hcall
  flight := fun _ hflight => nomatch hflight

theorem Traced.reached (h : Traced given flow) (howned : flow.Owned) (moves : List Move)
    (hgiven : ∀ turn ∈ flow.history settings moves, ∀ pair, turn.given? = some pair →
      pair ∈ given) : Traced given (flow.reached settings moves) := by
  apply howned.reached_induction h
  intro turn hturn howned hbefore
  exact (step_of_mem_history hturn).2.traced howned hbefore (hgiven turn hturn)

theorem mem_givens {turns : List Turn} {turn : Turn} {pair : Nat × TxHash} (hturn : turn ∈ turns)
    (hpair : turn.given? = some pair) : pair ∈ givens turns :=
  List.mem_filterMap.2 ⟨turn, hturn, hpair⟩

theorem traced_history (settings : Settings) (early late : List Move) :
    Traced (givens (({} : Flow).history settings (early ++ late)))
      (({} : Flow).reached settings early) := by
  apply (traced_start _).reached owned_start
  intro turn hturn pair hpair
  apply mem_givens _ hpair
  rw [history_append]
  exact List.mem_append_left _ hturn

/-- In a fresh run a hash names the call that it was given to. -/
theorem Fresh.eq_of_given {moves : List Move} (h : Fresh settings moves) {hash : TxHash}
    {left right : Nat} (hleft : (left, hash) ∈ givens (({} : Flow).history settings moves))
    (hright : (right, hash) ∈ givens (({} : Flow).history settings moves)) : left = right :=
  congrArg Prod.fst (List.inj_on_of_nodup_map h hleft hright rfl)

/-- What is in flight is not what a stale call waits for. -/
theorem Traced.foreign (h : Traced given flow)
    (hnames : ∀ hash left right, (left, hash) ∈ given → (right, hash) ∈ given → left = right)
    {call : OpenCall} (hcall : call ∈ flow.calls)
    (hstale : call.attempt.epoch ≠ flow.desk.epoch) {hash : TxHash}
    (hstage : call.stage = .sent hash) :
    ∀ flight, flow.desk.inFlight = some flight → flight.hash ≠ hash := by
  rintro flight hflight rfl
  obtain ⟨id, hgiven, -, hcurrent⟩ := h.flight flight hflight
  have hid := hnames _ _ _ (h.sent call hcall _ hstage) hgiven
  exact hstale (hcurrent call hcall hid)

end Tracing

/-! ## Stale calls -/

/-- What a call does that is of no concern to anyone else. -/
def Effect.isOwn (id : Nat) : Effect → Bool
  | .answer owner _ | .awaitReceipt owner _ _ => owner = id
  | _ => false

/-- A move of the call changes nothing but the call itself, except that its own
hash may be put in the table as not applied. -/
structure Inert (flow : Flow) (call : OpenCall) (move : Move) (after : Flow)
    (effects : List Effect) : Prop where
  desk : after.desk = flow.desk ∨ ∃ hash, call.stage = .sent hash ∧
    flow.desk.processed.get? hash = none ∧
    after.desk = { flow.desk with processed := flow.desk.processed.put hash false }
  calls : after.calls = flow.calls ∨ after.calls = (flow.drop call.id).calls ∨
    ∃ hash stage, move = .submitted call.id (.ok hash) ∧
      (stage = .approvalSent hash ∨ stage = .sent hash) ∧
      after.calls = (flow.advance call.id stage).calls
  next : after.next = flow.next
  effects : ∀ effect ∈ effects, Effect.isOwn call.id effect = true

theorem Step.inert {settings : Settings} {flow after : Flow} {move : Move}
    {effects : List Effect} (step : Step settings flow move after effects) {id : Nat}
    {call : OpenCall} (hmove : move.call? = some id) (hcall : flow.find? id = some call)
    (hstale : call.attempt.epoch ≠ flow.desk.epoch)
    (hforeign : ∀ hash, call.stage = .sent hash →
      ∀ flight, flow.desk.inFlight = some flight → flight.hash ≠ hash) :
    Inert flow call move after effects := by
  obtain rfl := id_of_find? hcall
  cases step with
  | declined | restarted | retyped | refused | unplannable | asked | executed | passed | resumed
  | reported => cases hmove
  | missed => exact ⟨Or.inl rfl, Or.inl rfl, rfl, by simp⟩
  | approvalAccepted hfound hstage =>
    obtain rfl := Option.some.inj hmove
    exact ⟨Or.inl rfl, Or.inr (Or.inr ⟨_, _, rfl, Or.inl rfl, rfl⟩), rfl, by simp [Effect.isOwn]⟩
  | executionAccepted hfound hstage =>
    obtain rfl := Option.some.inj hmove
    obtain rfl := Option.some.inj (hcall.symm.trans hfound)
    rw [Desk.recordFlight_eq, if_neg (fun heq => hstale heq.symm)]
    exact ⟨Or.inl rfl, Or.inr (Or.inr ⟨_, _, rfl, Or.inr rfl, rfl⟩), rfl, by simp [Effect.isOwn]⟩
  | failed hfailing hfound _ hepoch =>
    obtain rfl := Option.some.inj (hmove.symm.trans hfailing)
    obtain rfl := Option.some.inj (hcall.symm.trans hfound)
    exact absurd hepoch.symm hstale
  | superseded hended hfound =>
    obtain rfl := Option.some.inj (hmove.symm.trans hended)
    exact ⟨Or.inl rfl, Or.inr (Or.inl rfl), rfl, by simp [Effect.isOwn]⟩
  | approved hfound _ hepoch =>
    obtain rfl := Option.some.inj hmove
    obtain rfl := Option.some.inj (hcall.symm.trans hfound)
    exact absurd hepoch.symm hstale
  | claimed hfound _ hepoch =>
    obtain rfl := Option.some.inj hmove
    obtain rfl := Option.some.inj (hcall.symm.trans hfound)
    exact absurd hepoch.symm hstale
  | settled hfound hstage hsettles =>
    obtain rfl := Option.some.inj hmove
    obtain rfl := Option.some.inj (hcall.symm.trans hfound)
    obtain ⟨hdesk, hsettled⟩ := hsettles.eq_of_not_inFlight (hforeign _ hstage)
    refine ⟨?_, Or.inr (Or.inl rfl), rfl, ?_⟩
    · rcases hdesk with rfl | ⟨hnone, rfl⟩
      · exact Or.inl rfl
      · exact Or.inr ⟨_, hstage, hnone, rfl⟩
    · rcases hsettled with rfl | rfl <;> simp [refreshes, Effect.isOwn]
  | abandoned =>
    obtain rfl := Option.some.inj hmove
    exact ⟨Or.inl rfl, Or.inr (Or.inl rfl), rfl, by simp⟩

end DonationFlow.Flow
