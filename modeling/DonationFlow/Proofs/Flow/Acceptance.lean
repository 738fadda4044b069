import DonationFlow.Proofs.Flow.HandOuts
import DonationFlow.Proofs.Flow.Supersession
import DonationFlow.Proofs.Plan

/-!
# What an accepted submission fixes

A submission is accepted with the intent as it stands.  Until the epoch moves
on, the intent stays that one but for its amount, and until the execution is
handed out only an edit changes the amount.  Main statement: `since_accepted`.
-/

namespace DonationFlow

/-- The attempt is for some amount of a listed intent, and has the plan of it. -/
structure Attempt.Sound (settings : Settings) (attempt : Attempt) : Prop where
  listed : attempt.intent.Listed
  units : attempt.intent.units.isZero = false
  planned : Plan.ofIntent attempt.intent settings.campaign settings.contracts = .ok attempt.plan

namespace Turn

/-- What comes with a submission that the turn accepts. -/
structure Accepts (settings : Settings) (turn : Turn) (attempt : Attempt) : Prop where
  units : attempt.intent.units.isZero = false
  current : turn.after.desk.epoch = attempt.epoch
  intent : attempt.intent = turn.before.desk.intent
  kept : turn.after.desk.intent = attempt.intent
  planned : Plan.ofIntent attempt.intent settings.campaign settings.contracts = .ok attempt.plan

/-- The turn changes the amount of an intent whose execution is still to be
handed out. -/
structure EditsAmount (turn : Turn) : Prop where
  edits : ∃ account edit, turn.move = .edit account edit
  precedes : turn.before.desk.status.precedesExecution = true
  changes : turn.after.desk.intent.units ≠ turn.before.desk.intent.units

end Turn

/-- One desk starts over as the other: with an intent of the catalog and a new
epoch, and with nothing left of what was under way. -/
structure Desk.RestartsAs (before after : Desk) : Prop where
  epoch : before.epoch < after.epoch
  listed : before.intent.Listed → after.intent.Listed
  status : after.status = .idle
  bridge : after.bridge = .idle
  inFlight : after.inFlight = none

namespace Flow

/-- The epoch is that of the attempt, which the turns accepted, and of no other. -/
structure Founds (settings : Settings) (turns : List Turn) (attempt : Attempt) (epoch : Nat) :
    Prop where
  accepted : attempt ∈ turns.filterMap (·.accepted? settings)
  current : attempt.epoch = epoch
  sole : ∀ other ∈ turns.filterMap (·.accepted? settings), other.epoch = epoch → other = attempt

section Steps

variable {settings : Settings} {flow after : Flow} {move : Move} {effects : List Effect}

theorem accepted?_of_submit {cache : ReadCache} {account : Option Address} {desk : Desk}
    {attempt : Attempt} {approval : Option CallRequest}
    (hsubmit : flow.desk.submit settings cache account = (desk, .ok (attempt, approval))) :
    Turn.accepted? settings ⟨flow, .submit cache account, after, effects⟩ = some attempt := by
  simp [Turn.accepted?, hsubmit]

theorem Step.accepts (step : Step settings flow move after effects) {attempt : Attempt}
    (haccepted : Turn.accepted? settings ⟨flow, move, after, effects⟩ = some attempt) :
    Turn.Accepts settings ⟨flow, move, after, effects⟩ attempt := by
  cases step with
  | declined | restarted | retyped | passed | resumed | reported | approvalAccepted
  | executionAccepted | approved | claimed | settled | abandoned => cases haccepted
  | missed hmove | failed hmove | superseded hmove =>
    rw [accepted?_of_call? hmove] at haccepted
    cases haccepted
  | refused hsubmit | unplannable _ hsubmit =>
    simp [Turn.accepted?, hsubmit] at haccepted
  | asked _ hunits hattempt hplan _ hsubmit =>
    obtain rfl := Option.some.inj ((accepted?_of_submit hsubmit).symm.trans haccepted)
    obtain ⟨hepoch, -, hintent⟩ := hattempt
    refine ⟨by rw [hintent, hunits], ?_, hintent, ?_, hplan⟩
    · show (flow.desk.taken.enter .approving).epoch = _
      rw [Desk.enter_eq, Desk.taken_eq, hepoch]
    · show (flow.desk.taken.enter .approving).intent = _
      rw [Desk.enter_eq, Desk.taken_eq, hintent]
  | executed _ hunits hattempt hplan _ hsubmit =>
    obtain rfl := Option.some.inj ((accepted?_of_submit hsubmit).symm.trans haccepted)
    obtain ⟨hepoch, -, hintent⟩ := hattempt
    refine ⟨by rw [hintent, hunits], ?_, hintent, ?_, hplan⟩
    · show (flow.desk.taken.beginExecution _).epoch = _
      rw [Desk.beginExecution_eq, Desk.taken_eq, hepoch]
    · show (flow.desk.taken.beginExecution _).intent = _
      rw [Desk.beginExecution_eq, Desk.taken_eq, hintent]

/-- Typing an amount leaves an akin intent. -/
theorem akin_typeIf (desk : Desk) (amount : Option String) :
    (desk.typeIf amount).intent.Akin desk.intent := by
  cases amount with
  | none => exact Intent.Akin.refl desk.intent
  | some text =>
    rw [Desk.typeIf, Desk.typeAmount_eq]
    exact desk.intent.akin_withAmount text

theorem akin_settles {desk settledDesk : Desk} {hash : TxHash}
    {outcome : Except FlowError Bool} {settled : Settled}
    (h : Desk.Settles desk hash outcome settledDesk settled) :
    settledDesk.intent.Akin desk.intent := by
  cases h with
  | known | strayed | lost => exact Intent.Akin.refl desk.intent
  | succeeded =>
    rw [Desk.applySuccess_eq]
    exact desk.intent.akin_clearAmount
  | failed =>
    rw [Desk.applyFailure_eq]
    exact Intent.Akin.refl desk.intent

/-- A step leaves an akin intent, or starts over with another. -/
theorem Step.akin_or_restarts (step : Step settings flow move after effects) :
    after.desk.intent.Akin flow.desk.intent ∨ flow.desk.RestartsAs after.desk := by
  cases step with
  | restarted htarget =>
    refine Or.inr ⟨?_, fun hlisted => ?_, ?_, ?_, ?_⟩
    · rw [Desk.typeIf_epoch, Desk.reset_eq]
      exact Nat.lt_succ_self _
    · have hblank := Edit.listed_of_target htarget hlisted
      rw [Desk.reset_eq]
      exact hblank.of_akin (akin_typeIf _ _)
    · exact Desk.typeIf_reset_status _ _ _
    · rw [Desk.typeIf_bridge, Desk.reset_eq]
    · rw [Desk.typeIf_inFlight, Desk.reset_eq]
  | retyped => exact Or.inl (akin_typeIf _ _)
  | reported hsettles | settled _ _ hsettles => exact Or.inl (akin_settles hsettles)
  | declined | refused | passed | missed | approvalAccepted | superseded | abandoned =>
    exact Or.inl (Intent.Akin.refl _)
  | unplannable =>
    rw [Desk.unplanned_eq]
    exact Or.inl (Intent.Akin.refl _)
  | asked =>
    rw [Desk.enter_eq, Desk.taken_eq]
    exact Or.inl (Intent.Akin.refl _)
  | executed =>
    rw [Desk.beginExecution_eq, Desk.taken_eq]
    exact Or.inl (Intent.Akin.refl _)
  | resumed | claimed =>
    rw [Desk.beginExecution_eq]
    exact Or.inl (Intent.Akin.refl _)
  | executionAccepted =>
    rw [Desk.recordFlight_eq]
    exact Or.inl (Intent.Akin.refl _)
  | failed =>
    rw [Desk.failWith_eq]
    exact Or.inl (Intent.Akin.refl _)
  | approved =>
    rw [Desk.enter_eq]
    exact Or.inl (Intent.Akin.refl _)

theorem Step.akin (step : Step settings flow move after effects)
    (hepoch : after.desk.epoch = flow.desk.epoch) :
    after.desk.intent.Akin flow.desk.intent := by
  rcases step.akin_or_restarts with hakin | hrestarts
  · exact hakin
  · exact absurd hepoch (Nat.ne_of_gt hrestarts.epoch)

theorem Step.listed (step : Step settings flow move after effects)
    (h : flow.desk.intent.Listed) : after.desk.intent.Listed := by
  rcases step.akin_or_restarts with hakin | hrestarts
  · exact h.of_akin hakin
  · exact hrestarts.listed h

/-- While the execution is still to be handed out, only an edit changes the
amount. -/
theorem Step.amount_kept (step : Step settings flow move after effects) (howned : flow.Owned)
    (hepoch : after.desk.epoch = flow.desk.epoch)
    (hprecedes : after.desk.status.precedesExecution = true) :
    flow.desk.status.precedesExecution = true ∧
      (after.desk.intent.units = flow.desk.intent.units ∨
        Turn.EditsAmount ⟨flow, move, after, effects⟩) := by
  cases step with
  | declined | refused | passed | missed | approvalAccepted | superseded | abandoned =>
    exact ⟨hprecedes, Or.inl rfl⟩
  | restarted =>
    rw [Desk.typeIf_reset_status] at hprecedes
    cases hprecedes
  | @retyped account edit =>
    rcases flow.desk.typeIf_status edit.amount with hsame | ⟨-, hidle⟩
    · rw [hsame] at hprecedes
      refine ⟨hprecedes, ?_⟩
      by_cases hunits : (flow.desk.typeIf edit.amount).intent.units = flow.desk.intent.units
      · exact Or.inl hunits
      · exact Or.inr ⟨⟨account, edit, rfl⟩, hprecedes, hunits⟩
    · -- Typing makes a final status idle, and nothing is to be executed then.
      rw [hidle] at hprecedes
      cases hprecedes
  | unplannable =>
    rw [Desk.unplanned_eq] at hprecedes
    cases hprecedes
  | asked =>
    rw [Desk.enter_eq, Desk.taken_eq] at hepoch
    exact absurd hepoch (Nat.succ_ne_self _)
  | executed | resumed | claimed =>
    rw [Desk.beginExecution_eq] at hprecedes
    cases hprecedes
  | reported hsettles | settled _ _ hsettles =>
    cases hsettles with
    | known | strayed | lost => exact ⟨hprecedes, Or.inl rfl⟩
    | succeeded =>
      rw [Desk.applySuccess_eq] at hprecedes
      cases hprecedes
    | failed =>
      rw [Desk.applyFailure_eq] at hprecedes
      cases hprecedes
  | executionAccepted =>
    rw [Desk.recordFlight_eq] at hprecedes ⊢
    exact ⟨hprecedes, Or.inl rfl⟩
  | failed =>
    rw [Desk.failWith_eq] at hprecedes
    cases hprecedes
  | approved hcall hstage hcurrent =>
    have happroving : flow.desk.status = .approving := howned.shows_of_find? hcall hcurrent hstage
    rw [Desk.enter_eq, happroving]
    exact ⟨rfl, Or.inl rfl⟩

end Steps

section Runs

variable {settings : Settings} {flow : Flow}

/-- Where the turns of a run are cut, the run is cut. -/
theorem exists_of_history_eq {moves : List Move} {early late : List Turn} {turn : Turn}
    (h : flow.history settings moves = early ++ turn :: late) :
    ∃ before move later, moves = before ++ move :: later ∧
      early = flow.history settings before ∧
      turn = (flow.reached settings before).turn settings move ∧
      late = turn.after.history settings later := by
  induction early generalizing flow moves with
  | nil =>
    cases moves with
    | nil => cases h
    | cons move later =>
      obtain ⟨rfl, rfl⟩ := List.cons.inj h
      exact ⟨[], move, later, rfl, rfl, rfl, rfl⟩
  | cons first early ih =>
    cases moves with
    | nil => cases h
    | cons opening moves =>
      obtain ⟨rfl, hrest⟩ := List.cons.inj h
      obtain ⟨before, move, later, rfl, rfl, rfl, rfl⟩ := ih hrest
      exact ⟨opening :: before, move, later, rfl, rfl, rfl, rfl⟩

theorem listed_reached (settings : Settings) (moves : List Move) :
    (({} : Flow).reached settings moves).desk.intent.Listed :=
  reached_induction (fun flow move h => (steps settings flow move).listed h)
    Intent.listed_default moves

theorem sound_of_accepted {moves : List Move} {attempt : Attempt}
    (h : attempt ∈ (({} : Flow).history settings moves).filterMap (·.accepted? settings)) :
    attempt.Sound settings := by
  obtain ⟨submission, hmem, haccepted⟩ := List.mem_filterMap.1 h
  obtain ⟨early, move, late, rfl, rfl⟩ := exists_of_mem_history hmem
  have haccepts := (steps settings _ move).accepts haccepted
  refine ⟨?_, haccepts.units, haccepts.planned⟩
  rw [haccepts.intent]
  exact listed_reached settings early

theorem exists_submission {moves : List Move} {attempt : Attempt}
    (h : attempt ∈ (({} : Flow).history settings moves).filterMap (·.accepted? settings)) :
    ∃ submission ∈ ({} : Flow).history settings moves,
      submission.accepted? settings = some attempt ∧
      attempt.intent = submission.before.desk.intent := by
  obtain ⟨submission, hmem, haccepted⟩ := List.mem_filterMap.1 h
  exact ⟨submission, hmem, haccepted, ((step_of_mem_history hmem).2.accepts haccepted).intent⟩

theorem founds_of_accepted {moves : List Move} {attempt : Attempt}
    (h : attempt ∈ (({} : Flow).history settings moves).filterMap (·.accepted? settings)) :
    Founds settings (({} : Flow).history settings moves) attempt attempt.epoch := by
  refine ⟨h, rfl, fun other hother hepoch => ?_⟩
  have hnodup := (counted_history settings moves).accepted_nodup
  exact List.inj_on_of_nodup_map hnodup hother h hepoch

theorem epoch_le_reached (settings : Settings) (flow : Flow) (moves : List Move) :
    flow.desk.epoch ≤ (flow.reached settings moves).desk.epoch := by
  induction moves generalizing flow with
  | nil => exact Nat.le_refl _
  | cons move moves ih => exact Nat.le_trans (steps settings flow move).epoch_le (ih _)

/-- While the epoch stands, the intent stays akin, and until the execution is
handed out its amount changes by edits only. -/
theorem Owned.within_epoch (howned : flow.Owned) {moves : List Move}
    (hepoch : (flow.reached settings moves).desk.epoch = flow.desk.epoch) :
    (flow.reached settings moves).desk.intent.Akin flow.desk.intent ∧
      ((flow.reached settings moves).desk.status.precedesExecution = true →
        flow.desk.status.precedesExecution = true ∧
          ((flow.reached settings moves).desk.intent.units = flow.desk.intent.units ∨
            ∃ turn ∈ flow.history settings moves, turn.EditsAmount)) := by
  induction moves generalizing flow with
  | nil => exact ⟨Intent.Akin.refl _, fun hprecedes => ⟨hprecedes, Or.inl rfl⟩⟩
  | cons move moves ih =>
    have hstep := steps settings flow move
    -- No step lowers the epoch, so that one which is the same in the end never moved.
    have hfirst : (flow.step settings move).1.desk.epoch = flow.desk.epoch := by
      refine Nat.le_antisymm ?_ hstep.epoch_le
      rw [← hepoch]
      exact epoch_le_reached settings _ moves
    obtain ⟨hakin, hamount⟩ := ih (hstep.owned howned) (hepoch.trans hfirst.symm)
    refine ⟨hakin.trans (hstep.akin hfirst), fun hprecedes => ?_⟩
    obtain ⟨hmiddle, hlater⟩ := hamount hprecedes
    obtain ⟨hbefore, hunits⟩ := hstep.amount_kept howned hfirst hmiddle
    refine ⟨hbefore, ?_⟩
    rcases hlater with hlater | ⟨turn, hturn, hedits⟩
    · rcases hunits with hunits | hedits
      · exact Or.inl (hlater.trans hunits)
      · exact Or.inr ⟨_, List.mem_cons_self, hedits⟩
    · exact Or.inr ⟨turn, List.mem_cons_of_mem _ hturn, hedits⟩

/-- The turn that accepted the submission in progress, and what has become of its
intent since. -/
theorem since_accepted {moves : List Move} {submission : Turn} {attempt : Attempt}
    (hmem : submission ∈ ({} : Flow).history settings moves)
    (haccepted : submission.accepted? settings = some attempt)
    (hepoch : attempt.epoch = (({} : Flow).reached settings moves).desk.epoch) :
    ∃ before between, ({} : Flow).history settings moves = before ++ submission :: between ∧
      (({} : Flow).reached settings moves).desk.intent.Akin attempt.intent ∧
      ((({} : Flow).reached settings moves).desk.status.precedesExecution = true →
        (({} : Flow).reached settings moves).desk.intent.units = attempt.intent.units ∨
          ∃ turn ∈ between, turn.EditsAmount) := by
  obtain ⟨early, move, late, rfl, rfl⟩ := exists_of_mem_history hmem
  have hstep := steps settings (({} : Flow).reached settings early) move
  have haccepts := hstep.accepts haccepted
  have howned := hstep.owned (owned_reached settings early)
  rw [reached_append, reached_cons] at hepoch ⊢
  obtain ⟨hakin, hamount⟩ :=
    howned.within_epoch (hepoch.symm.trans haccepts.current.symm)
  have hkept : (Flow.step settings (({} : Flow).reached settings early) move).1.desk.intent =
    attempt.intent := haccepts.kept
  rw [hkept] at hakin hamount
  exact ⟨_, _, history_append early (move :: late), hakin, fun h => (hamount h).2⟩

end Runs

end Flow

end DonationFlow
