import DonationFlow.Proofs.Flow.HandOuts

/-!
# Success is applied once

However often and in whatever order the outcomes of executions are delivered,
the success of a hash is applied at most once and as a whole.  The table of
processed hashes carries the argument: a turn applies a hash exactly if it puts
it there as applied, and no entry ever changes.  A submission is told of at most
once, since only one in progress is told of, and none is in progress after.
-/

namespace DonationFlow

/-- Whether an effect is the answer of a call. -/
def Effect.isAnswer : Effect → Bool
  | .answer .. => true
  | _ => false

namespace Flow

section Turns

variable {settings : Settings} {turn : Turn}

theorem spares_or_applies (h : turn.Ends) : turn.Spares ∨ ∃ hash, turn.Applies hash := by
  cases h with
  | quiet hspares | failed hspares => exact Or.inl hspares
  | confirmed happlies => exact Or.inr ⟨_, happlies⟩

theorem get?_put_of_get?_eq_none {table : Table TxHash Bool} {hash other : TxHash}
    {applied value : Bool} (hnone : table.get? hash = none)
    (hother : table.get? other = some applied) :
    (table.put hash value).get? other = some applied := by
  have hne : other ≠ hash := by
    intro heq
    rw [heq, hnone] at hother
    cases hother
  rw [Table.get?_put_of_ne _ _ hne]
  exact hother

/-- The table of processed hashes only grows, and no entry changes. -/
theorem processed_grows_turn (h : turn.Ends) {hash : TxHash} {applied : Bool}
    (hprocessed : turn.before.desk.processed.get? hash = some applied) :
    turn.after.desk.processed.get? hash = some applied := by
  rcases spares_or_applies h with hspares | ⟨other, happlies⟩
  · rcases hspares.processed with heq | ⟨other, -, hnone, heq⟩ <;> rw [heq]
    · exact hprocessed
    · exact get?_put_of_get?_eq_none hnone hprocessed
  · rw [happlies.processed]
    exact get?_put_of_get?_eq_none happlies.unprocessed hprocessed

/-- A turn applies a hash exactly if it puts it in the table as applied. -/
theorem applies_iff_put (h : turn.Ends) (hash : TxHash) :
    turn.Applies hash ↔ turn.before.desk.processed.get? hash ≠ some true ∧
      turn.after.desk.processed.get? hash = some true := by
  constructor
  · intro happlies
    rw [happlies.unprocessed, happlies.processed, Table.get?_put_self]
    exact ⟨by simp, rfl⟩
  · rintro ⟨hbefore, hafter⟩
    rcases spares_or_applies h with hspares | ⟨other, happlies⟩
    · rcases hspares.processed with heq | ⟨other, -, -, heq⟩ <;> rw [heq] at hafter
      · exact absurd hafter hbefore
      · rw [Table.get?_put] at hafter
        split at hafter
        · cases hafter
        · exact absurd hafter hbefore
    · rw [happlies.processed, Table.get?_put] at hafter
      split at hafter
      · rename_i heq
        rw [heq]
        exact happlies
      · exact absurd hafter hbefore

/-- Once a hash is processed, a delivery for it changes nothing, and leads to
nothing but the answer of the call that waited for it. -/
theorem inert_of_processed {flow : Flow} {move : Move} {hash : TxHash}
    (hdelivered : (flow.turn settings move).delivered? = some hash)
    (hprocessed : flow.desk.processed.get? hash ≠ none) :
    (flow.step settings move).1.desk = flow.desk ∧
      ∀ effect ∈ (flow.step settings move).2, effect.isAnswer = true := by
  obtain ⟨applied, happlied⟩ := Option.ne_none_iff_exists'.1 hprocessed
  have hinert : ∀ outcome, flow.desk.settle hash outcome =
      (flow.desk, if applied then .alreadyConfirmed else .ignored) := by
    intro outcome
    obtain ⟨hdesk, hsettled⟩ := (Desk.settles flow.desk hash outcome).eq_of_processed happlied
    exact Prod.ext hdesk hsettled
  cases move with
  | report other confirmed =>
    obtain rfl : other = hash := Option.some.inj hdelivered
    simp only [step, report, hinert]
    refine ⟨trivial, ?_⟩
    intro effect heffect
    cases applied <;> cases heffect
  | mined id outcome =>
    simp only [Turn.delivered?, turn] at hdelivered
    split at hdelivered
    · rename_i other attempt sent hcall
      obtain rfl := Option.some.inj hdelivered
      simp only [step, mined, hcall, hinert]
      refine ⟨rfl, fun effect heffect => ?_⟩
      have hanswer : effect ∈ [Effect.answer id (answerOf sent
          (if applied then .alreadyConfirmed else .ignored))] := by
        cases applied <;> exact heffect
      rw [List.mem_singleton.1 hanswer]
      rfl
    · cases hdelivered
  | edit | submit | tick | submitted | proceed | abandon => cases hdelivered

/-- A report answers that it changed the status exactly if it did. -/
theorem report_changed_iff {flow : Flow} (h : flow.Owned) (hash : TxHash) (confirmed : Bool) :
    (flow.report hash confirmed).2.1 = true ↔
      (flow.report hash confirmed).1.desk.status ≠ flow.desk.status :=
  (Desk.settles flow.desk hash (.ok confirmed)).changed_iff h.flight_pending

/-- A call is answered with a confirmation only for a hash whose success is
applied by then. -/
theorem applied_of_answer {flow after : Flow} {move : Move} {effects : List Effect}
    (step : Step settings flow move after effects) {id : Nat} {hash : TxHash}
    (h : .answer id (.confirmed hash) ∈ effects) :
    after.desk.processed.get? hash = some true := by
  cases step with
  | declined | retyped | missed | abandoned => cases h
  | restarted => exact absurd h (answer_not_mem_editRereads _ _ _ _ _)
  | refused | unplannable | asked | executed | resumed | approvalAccepted | executionAccepted
  | failed | superseded | claimed =>
    simp [handOutExecution] at h
  | passed hresume =>
    rcases hresume with ⟨-, rfl⟩ | ⟨_, -, rfl⟩ <;> simp at h
  | reported => exact absurd h (answer_not_mem_refreshes _ _ _)
  | approved => exact absurd h (answer_not_mem_approvalRereads _ _ _ _ _)
  | settled _ _ hsettles =>
    obtain ⟨-, hanswer⟩ := eq_answerOf_of_mem h
    cases hsettles with
    | @known applied _ hprocessed =>
      cases applied
      · cases hanswer
      · cases hanswer
        exact hprocessed
    | succeeded =>
      cases hanswer
      rw [Desk.applySuccess_eq]
      exact Table.get?_put_self _ _ _
    | failed | strayed | lost => cases hanswer

end Turns

/-! ## Runs -/

/-- The submissions that the turns told a notice of, in order. -/
def noticed (turns : List Turn) : List Nat :=
  turns.flatMap fun turn => turn.notices.map fun _ => turn.after.desk.epoch

/-- The successes applied so far are those in the table.  While the current
submission is in progress, nothing was told of it. -/
structure Accounted (settings : Settings) (past : List Turn) (flow : Flow) : Prop where
  counted : Counted settings past flow
  ends : ∀ turn ∈ past, turn.Ends
  applied : ∀ hash, flow.desk.processed.get? hash = some true ↔
    ∃ turn ∈ past, turn.Applies hash
  once : past.Pairwise fun earlier later => ∀ hash, earlier.Applies hash → ¬later.Applies hash
  noticed_accepted : ∀ epoch ∈ noticed past, epoch ∈ acceptances settings past
  noticed_nodup : (noticed past).Nodup
  silent : flow.desk.status.isInProgress = true → flow.desk.epoch ∉ noticed past

section Accounting

variable {settings : Settings} {past : List Turn} {turn : Turn}

theorem noticed_snoc : noticed (past ++ [turn]) =
    noticed past ++ turn.notices.map fun _ => turn.after.desk.epoch := by
  simp [noticed]

/-- A submission in progress was so before the turn, or is a new one. -/
theorem progress_of_hands (h : turn.Hands settings)
    (hprogress : turn.after.desk.status.isInProgress = true) :
    turn.before.desk.status.isInProgress = true ∧
      turn.after.desk.epoch = turn.before.desk.epoch ∨
    turn.before.desk.epoch < turn.after.desk.epoch := by
  cases h with
  | nothing _ _ _ hnothing =>
    obtain ⟨hepoch, hbefore, -⟩ := hnothing hprogress
    exact Or.inl ⟨hbefore, hepoch⟩
  | approval _ _ _ _ hattempt hepoch | execution _ _ _ _ hattempt hepoch =>
    right
    omega
  | carriedOn _ _ _ _ _ hepoch happroved =>
    left
    rw [happroved]
    exact ⟨rfl, hepoch⟩

theorem Accounted.snoc (h : Accounted settings past turn.before) (hends : turn.Ends)
    (hhands : turn.Hands settings) (hcounted : Counted settings (past ++ [turn]) turn.after) :
    Accounted settings (past ++ [turn]) turn.after := by
  have hold : ∀ epoch ∈ noticed past, epoch ∈ acceptances settings (past ++ [turn]) := by
    intro epoch hmem
    rw [acceptances_snoc]
    exact List.mem_append_left _ (h.noticed_accepted epoch hmem)
  have hsilent : turn.after.desk.status.isInProgress = true →
      turn.after.desk.epoch ∉ noticed past := by
    intro hprogress
    rcases progress_of_hands hhands hprogress with ⟨hbefore, hepoch⟩ | hnew
    · rw [hepoch]
      exact h.silent hbefore
    · intro hmem
      have hle := h.counted.accepted_le _ (h.noticed_accepted _ hmem)
      omega
  -- A turn that tells a notice finds the submission in progress, and does not leave it so.
  have hnotice : noticed (past ++ [turn]) = noticed past ∨
      noticed (past ++ [turn]) = noticed past ++ (some turn.after.desk.epoch).toList ∧
        turn.before.desk.status.isInProgress = true ∧
        turn.after.desk.status.isInProgress = false ∧
        turn.after.desk.epoch = turn.before.desk.epoch := by
    rw [noticed_snoc]
    cases hends with
    | quiet _ htells =>
      left
      rw [Turn.notices_eq_of_tells htells]
      exact List.append_nil _
    | failed _ htells hprogress hstatus hepoch =>
      right
      rw [Turn.notices_eq_of_tells htells, hstatus]
      exact ⟨rfl, hprogress, rfl, hepoch⟩
    | confirmed happlies htells hepoch =>
      right
      rw [Turn.notices_eq_of_tells htells, happlies.status.1, happlies.status.2]
      exact ⟨rfl, rfl, rfl, hepoch⟩
  refine ⟨hcounted, ?_, ?_, ?_, ?_, ?_, ?_⟩
  · intro other hother
    rcases List.mem_append.1 hother with hother | hother
    · exact h.ends other hother
    · rw [List.mem_singleton.1 hother]
      exact hends
  · intro hash
    have happlies := applies_iff_put hends hash
    constructor
    · intro hprocessed
      by_cases hbefore : turn.before.desk.processed.get? hash = some true
      · obtain ⟨earlier, hearlier, happlied⟩ := (h.applied hash).1 hbefore
        exact ⟨earlier, List.mem_append_left _ hearlier, happlied⟩
      · exact ⟨turn, by simp, happlies.2 ⟨hbefore, hprocessed⟩⟩
    · rintro ⟨other, hother, happlied⟩
      rcases List.mem_append.1 hother with hother | hother
      · exact processed_grows_turn hends ((h.applied hash).2 ⟨other, hother, happlied⟩)
      · rw [List.mem_singleton.1 hother] at happlied
        exact (happlies.1 happlied).2
  · rw [List.pairwise_append]
    refine ⟨h.once, List.pairwise_singleton _ _, ?_⟩
    intro earlier hearlier later hlater hash happlied hagain
    rw [List.mem_singleton.1 hlater] at hagain
    have hprocessed := (h.applied hash).2 ⟨earlier, hearlier, happlied⟩
    exact ((applies_iff_put hends hash).1 hagain).1 hprocessed
  · intro epoch hmem
    rcases hnotice with heq | ⟨heq, hbefore, -, hepoch⟩ <;> rw [heq] at hmem
    · exact hold epoch hmem
    · rcases List.mem_append.1 hmem with hmem | hmem
      · exact hold epoch hmem
      · rw [List.mem_singleton.1 hmem, hepoch, acceptances_snoc]
        exact List.mem_append_left _ (h.counted.progress hbefore).1
  · rcases hnotice with heq | ⟨heq, hbefore, -, hepoch⟩ <;> rw [heq]
    · exact h.noticed_nodup
    · apply nodup_append_toList h.noticed_nodup
      rintro epoch ⟨⟩
      rw [hepoch]
      exact h.silent hbefore
  · intro hprogress
    rcases hnotice with heq | ⟨-, -, hafter, -⟩
    · rw [heq]
      exact hsilent hprogress
    · rw [hprogress] at hafter
      cases hafter

theorem accounted_history (settings : Settings) (moves : List Move) :
    Accounted settings (({} : Flow).history settings moves)
      (({} : Flow).reached settings moves) := by
  refine history_induction (fun past flow move h => ?_) ?_ moves
  · have hstep := steps settings flow move
    have hhands := hstep.hands h.counted.owned h.counted.planned
    exact h.snoc (hstep.ends h.counted.owned) hhands (h.counted.snoc hhands
      (hstep.owned h.counted.owned) (hstep.planned h.counted.owned.numbered h.counted.planned))
  · exact
      { counted := counted_history settings []
        ends := fun _ hmem => nomatch hmem
        applied := fun _ => ⟨(nomatch ·), fun ⟨_, hmem, _⟩ => nomatch hmem⟩
        once := List.Pairwise.nil
        noticed_accepted := fun _ hmem => nomatch hmem
        noticed_nodup := List.nodup_nil
        silent := fun hprogress => nomatch hprogress }

end Accounting

/-- What is in the table stays there to the end of the run. -/
theorem processed_grows (settings : Settings) {flow : Flow} (h : flow.Owned)
    (moves : List Move) {hash : TxHash} {applied : Bool}
    (hprocessed : flow.desk.processed.get? hash = some applied) :
    (flow.reached settings moves).desk.processed.get? hash = some applied := by
  refine h.reached_induction (P := fun flow => flow.desk.processed.get? hash = some applied)
    hprocessed ?_
  intro turn hturn howned hbefore
  exact processed_grows_turn ((step_of_mem_history hturn).2.ends howned) hbefore

/-- The success of a hash is applied as a whole or not at all, by at most one
turn of a run, and a call is told of it only after.  What is in the table of
processed hashes stays, and its later deliveries change nothing.  A submission
is told of at most once. -/
theorem success_applied_once (settings : Settings) (moves : List Move) :
    let turns := ({} : Flow).history settings moves
    let last := ({} : Flow).reached settings moves
    (∀ turn ∈ turns, turn.Spares ∨ ∃ hash, turn.Applies hash) ∧
    (turns.Pairwise fun earlier later => ∀ hash, earlier.Applies hash → ¬later.Applies hash) ∧
    (∀ turn ∈ turns, ∀ hash applied, turn.before.desk.processed.get? hash = some applied →
      last.desk.processed.get? hash = some applied ∧
      (turn.delivered? = some hash → turn.after.desk = turn.before.desk ∧
        ∀ effect ∈ turn.effects, effect.isAnswer = true)) ∧
    (∀ hash confirmed, (last.report hash confirmed).2.1 = true ↔
      (last.report hash confirmed).1.desk.status ≠ last.desk.status) ∧
    (∀ id hash, .answer id (.confirmed hash) ∈ (({} : Flow).run settings moves).2 →
      ∃ turn ∈ turns, turn.Applies hash) ∧
    (∀ epoch ∈ noticed turns, epoch ∈ acceptances settings turns) ∧ (noticed turns).Nodup := by
  intro turns last
  have h := accounted_history settings moves
  refine ⟨fun turn hturn => spares_or_applies (h.ends turn hturn), h.once, ?_, ?_, ?_,
    h.noticed_accepted, h.noticed_nodup⟩
  · intro turn hturn hash applied hprocessed
    obtain ⟨early, move, late, hmoves, rfl⟩ := exists_of_mem_history hturn
    constructor
    · have hlast : last = (({} : Flow).reached settings early).reached settings (move :: late) := by
        rw [← reached_append, ← hmoves]
      rw [hlast]
      exact processed_grows settings (owned_reached settings early) _ hprocessed
    · intro hdelivered
      apply inert_of_processed hdelivered
      intro hnone
      cases hprocessed.symm.trans hnone
  · exact report_changed_iff (owned_reached settings moves)
  · intro id hash hanswer
    rw [← effects_history, List.mem_flatMap] at hanswer
    obtain ⟨turn, hturn, hanswer⟩ := hanswer
    obtain ⟨early, move, late, hmoves, rfl⟩ := exists_of_mem_history hturn
    have hstep := steps settings (({} : Flow).reached settings early) move
    have hlast : last = (((({} : Flow).reached settings early).step settings move).1).reached
        settings late := by
      rw [← reached_cons, ← reached_append, ← hmoves]
    apply (h.applied hash).1
    show last.desk.processed.get? hash = some true
    rw [hlast]
    exact processed_grows settings (hstep.owned (owned_reached settings early)) late
      (applied_of_answer hstep hanswer)

/-- A report comes before the receipt that the submission waits for. -/
def reportedRun : List Move :=
  [.edit none { token := some "ETH", amount := some "1" }, .submit {} (some default),
    .submitted 0 (.ok trialHash), .report trialHash true, .mined 0 (.ok true)]

theorem success_applied_once_of_reportedRun :
    .answer 0 (.confirmed trialHash) ∈ (({} : Flow).run trialSettings reportedRun).2 ∧
      ∃ turn ∈ ({} : Flow).history trialSettings reportedRun, turn.Applies trialHash := by
  have hanswer : .answer 0 (.confirmed trialHash) ∈
      (({} : Flow).run trialSettings reportedRun).2 := by decide +kernel
  obtain ⟨-, -, -, -, hconfirmed, -⟩ := success_applied_once trialSettings reportedRun
  exact ⟨hanswer, hconfirmed 0 trialHash hanswer⟩

end Flow

end DonationFlow
