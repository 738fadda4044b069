import DonationFlow.Proofs.Flow.Approval

/-!
# What is executed

A submission and its own call execute the plan that was made when it was
accepted.  The watcher plans anew when it takes up an approved submission, and
so executes the amount as edited in the meantime.  Main statement:
`executed_as_submitted_unless_edited`, which says that there is no other way to
execute anything but what was submitted.
-/

namespace DonationFlow.Flow

section Executing

variable {settings : Settings} {moves : List Move}

/-- The approved submission that the watcher finds, and the edits since. -/
theorem exists_edit_of_units_ne {attempt : Attempt}
    (happroved : Approved settings (({} : Flow).history settings moves) attempt)
    (hepoch : attempt.epoch = (({} : Flow).reached settings moves).desk.epoch)
    (hstatus : (({} : Flow).reached settings moves).desk.status = .approved)
    (hunits : (({} : Flow).reached settings moves).desk.intent.units ≠ attempt.intent.units) :
    ∃ before submission between,
      ({} : Flow).history settings moves = before ++ submission :: between ∧
      submission.accepted? settings = some attempt ∧ ∃ edit ∈ between, edit.EditsAmount := by
  obtain ⟨submission, hmem, haccepted, -⟩ := happroved.accepted
  obtain ⟨before, between, hcut, -, hamount⟩ := since_accepted hmem haccepted hepoch
  have hprecedes :
      (({} : Flow).reached settings moves).desk.status.precedesExecution = true := by
    rw [hstatus]
    rfl
  exact ⟨before, submission, between, hcut, haccepted,
    (hamount hprecedes).resolve_left hunits⟩

end Executing

/-- The turn takes up an approved submission whose amount was edited while its
execution was still to come, and executes the intent as it stands. -/
structure ExecutesEdited (settings : Settings) (early : List Turn) (turn : Turn)
    (attempt : Attempt) (request : CallRequest) : Prop where
  ticks : ∃ cache account, turn.move = .tick cache account
  akin : turn.before.desk.intent.Akin attempt.intent
  live : ∃ plan, Plan.ofIntent turn.before.desk.intent settings.campaign settings.contracts =
    .ok plan ∧ request = plan.request
  differs : request.amount ≠ attempt.plan.request.amount
  edited : ∃ before submission between, early = before ++ submission :: between ∧
    submission.accepted? settings = some attempt ∧ ∃ edit ∈ between, edit.EditsAmount

/-- Every execution that is handed out is the plan of the intent as it stood when
its submission was accepted, unless the amount was edited while the execution
was still to come and the watcher takes it up. -/
theorem executed_as_submitted_unless_edited (settings : Settings) (moves : List Move)
    (early : List Turn) (turn : Turn) (late : List Turn)
    (hcut : ({} : Flow).history settings moves = early ++ turn :: late)
    (id chainId : Nat) (request : CallRequest)
    (hmem : .handOut id chainId request ∈ turn.effects)
    (hexecution : request.isApproval = false) :
    ∃ attempt, Founds settings (early ++ [turn]) attempt turn.after.desk.epoch ∧
      (∃ submission ∈ early ++ [turn], submission.accepted? settings = some attempt ∧
        attempt.intent = submission.before.desk.intent) ∧
      Plan.ofIntent attempt.intent settings.campaign settings.contracts = .ok attempt.plan ∧
      chainId = attempt.intent.chain.id ∧
      (request = attempt.plan.request ∨ ExecutesEdited settings early turn attempt request) := by
  obtain ⟨attempt, hfounds, hchain, hsound, hserves⟩ := exists_served hcut hmem
  obtain ⟨before, move, later, rfl, rfl, rfl, rfl⟩ := exists_of_history_eq hcut
  have haccepted : attempt ∈ (({} : Flow).history settings (before ++ [move])).filterMap
      (·.accepted? settings) := by
    rw [history_append]
    exact hfounds.accepted
  have horigin := exists_submission haccepted
  rw [history_append] at horigin
  refine ⟨attempt, hfounds, horigin, hsound.planned, hchain, ?_⟩
  cases hserves with
  | asks hasks heffects =>
    rw [isApproval_of_asks hasks heffects] at hexecution
    cases hexecution
  | begins | claims => exact Or.inl rfl
  | @resumes _ _ plan hmove hstatus hepoch happroved hakin _ _ hlive =>
    -- The live intent is akin to the submitted one, so that only the amount can differ.
    by_cases hunits : (({} : Flow).reached settings before).desk.intent.units =
        attempt.intent.units
    · exact Or.inl ((Plan.request_eq_iff hakin hsound.planned hlive).2 hunits)
    · refine Or.inr ⟨⟨_, _, hmove⟩, hakin, ⟨plan, hlive, rfl⟩, ?_, ?_⟩
      · rw [Plan.amount_of_ofIntent hlive, Plan.amount_of_ofIntent hsound.planned]
        exact hunits
      · exact exists_edit_of_units_ne happroved hepoch hstatus hunits

/-- The amount is edited while the approval is not mined yet, and the watcher takes
the submission up before its own call does. -/
def retypedRun : List Move :=
  let allowed := ReadCache.land {}
    (.allowance 8453 Intent.default.token default default (.ok Word.top))
  [.edit none { amount := some "10" }, .submit {} (some default), .submitted 0 (.ok trialHash),
    .edit none { amount := some "25" }, .mined 0 (.ok true), .tick allowed (some default)]

theorem executed_as_submitted_unless_edited_of_retypedRun :
    ∃ early turn late attempt,
      ({} : Flow).history trialSettings retypedRun = early ++ turn :: late ∧
      .handOut 1 8453 (trialGift 25000000) ∈ turn.effects ∧
      Founds trialSettings (early ++ [turn]) attempt turn.after.desk.epoch ∧
      ExecutesEdited trialSettings early turn attempt (trialGift 25000000) := by
  let early := ({} : Flow).history trialSettings (retypedRun.take 5)
  let turn :=
    (({} : Flow).reached trialSettings (retypedRun.take 5)).turn trialSettings retypedRun[5]
  have hcut : ({} : Flow).history trialSettings retypedRun = early ++ turn :: [] := rfl
  have hmem : .handOut 1 8453 (trialGift 25000000) ∈ turn.effects := by decide +kernel
  obtain ⟨attempt, hfounds, -, -, -, hexecuted⟩ :=
    executed_as_submitted_unless_edited trialSettings retypedRun early turn [] hcut 1 8453
      (trialGift 25000000) hmem rfl
  have hplanned : ∀ attempt ∈ (early ++ [turn]).filterMap (·.accepted? trialSettings),
      trialGift 25000000 ≠ attempt.plan.request := by decide +kernel
  exact ⟨early, turn, [], attempt, hcut, hmem, hfounds,
    hexecuted.resolve_left (hplanned attempt hfounds.accepted)⟩

/-- One submission was accepted, for ten units of the currency, and twenty-five are
executed for it. -/
theorem edited_amount_executed_in_retypedRun :
    let turns := ({} : Flow).history trialSettings retypedRun
    (turns.filterMap (·.accepted? trialSettings)).map
        (fun attempt => (attempt.epoch, attempt.plan.request)) = [(1, trialGift 10000000)] ∧
      ((turns.flatMap (·.handOuts)).filter (!·.request.isApproval)).map
        (fun handOut => (handOut.attempt.epoch, handOut.request)) =
        [(1, trialGift 25000000)] := by
  decide +kernel

end DonationFlow.Flow
