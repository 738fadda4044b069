import DonationFlow.Proofs.Desk.Likeness
import DonationFlow.Proofs.Flow.Approval
import DonationFlow.Proofs.Flow.Coherence

/-!
# Where requests go

A request is handed out only for a chain that calls can be made for, and it is
either the approval of an accepted submission or the plan of an intent akin to
it.  Main statement: `handed_out_only_where_reached`, with what it says of chains
that cannot be reached: nothing is ever handed out for them.
-/

namespace DonationFlow.Flow

section Routing

variable {settings : Settings} {moves : List Move}

/-- An approval that is asked for is the one of the token for its spender. -/
theorem approval_of_asks {turn : Turn} {attempt : Attempt} {id chainId : Nat}
    {request : CallRequest} (h : turn.Asks settings id attempt)
    (hsound : attempt.Sound settings) (hmem : .handOut id chainId request ∈ turn.effects) :
    (settings.contracts.spender? attempt.intent.chain).bind
      (Plan.approval? attempt.intent.token) = some request := by
  obtain ⟨-, -, contract, hcontract, heffects⟩ := h
  rw [heffects] at hmem
  obtain ⟨-, -, rfl⟩ := Effect.handOut.inj (List.mem_singleton.1 hmem)
  rw [Plan.spender?_of_ofIntent hsound.planned, Option.bind_some, Plan.approval?, hcontract]
  rfl

/-- While the status is `approved`, the intent can be planned. -/
theorem exists_plan_of_approved
    (hstatus : (({} : Flow).reached settings moves).desk.status = .approved) :
    ∃ plan, Plan.ofIntent (({} : Flow).reached settings moves).desk.intent settings.campaign
      settings.contracts = .ok plan := by
  have hcoherent := coherent_reached settings moves
  exact (hcoherent.approvable (by rw [hstatus]; rfl)).planned

/-- The watcher never fails to plan what it takes up. -/
theorem resume_ne_error (cache : ReadCache) (account : Option Address) (error : FlowError) :
    (({} : Flow).reached settings moves).desk.resume settings cache account ≠ .error error := by
  cases account with
  | none => exact fun heq => nomatch heq
  | some account =>
    rw [Desk.resume_eq]
    split
    · exact fun heq => nomatch heq
    · rename_i hsettled
      have hstatus : (({} : Flow).reached settings moves).desk.status = .approved := by
        simp only [Desk.isSettledFor, Bool.or_eq_true, not_or, decide_eq_true_eq, ne_eq,
          Decidable.not_not] at hsettled
        exact hsettled.1.1.1
      obtain ⟨plan, hplan⟩ := exists_plan_of_approved hstatus
      rw [hplan]
      exact fun heq => nomatch heq

/-- A request is handed out in the run only if it is in some turn. -/
theorem exists_turn_of_handOut {id chainId : Nat} {request : CallRequest}
    (hmem : .handOut id chainId request ∈ (({} : Flow).run settings moves).2) :
    ∃ early turn late, ({} : Flow).history settings moves = early ++ turn :: late ∧
      .handOut id chainId request ∈ turn.effects := by
  rw [← effects_history] at hmem
  obtain ⟨turn, hturn, heffect⟩ := List.mem_flatMap.1 hmem
  obtain ⟨early, late, hcut⟩ := List.append_of_mem hturn
  exact ⟨early, turn, late, hcut, heffect⟩

end Routing

/-- Whatever the order of submissions, ticks, edits, reports and answers, each
request that is handed out is for an accepted submission on a chain that calls
can be made for, and is its approval or the plan of an akin intent of some
amount.  So nothing is handed out for a chain that cannot be reached; and the
watcher never fails to plan what was approved. -/
theorem handed_out_only_where_reached (settings : Settings) (moves : List Move) :
    (∀ early turn late, ({} : Flow).history settings moves = early ++ turn :: late →
      ∀ id chainId request, .handOut id chainId request ∈ turn.effects →
      ∃ attempt, Founds settings (early ++ [turn]) attempt turn.after.desk.epoch ∧
        attempt.intent.chain.id = chainId ∧ attempt.intent.chain ∈ Chain.all ∧
        settings.contracts.Reaches attempt.intent.chain ∧
        ((settings.contracts.spender? attempt.intent.chain).bind
            (Plan.approval? attempt.intent.token) = some request ∨
          ∃ intent plan, intent.Akin attempt.intent ∧ intent.units.isZero = false ∧
            Plan.ofIntent intent settings.campaign settings.contracts = .ok plan ∧
            request = plan.request)) ∧
    (∀ chain ∈ Chain.all, ¬settings.contracts.Reaches chain →
      ∀ id request, .handOut id chain.id request ∉ (({} : Flow).run settings moves).2) ∧
    ((({} : Flow).reached settings moves).desk.status = .approved →
      ∃ plan, Plan.ofIntent (({} : Flow).reached settings moves).desk.intent settings.campaign
        settings.contracts = .ok plan) ∧
    ∀ cache account error,
      (({} : Flow).reached settings moves).desk.resume settings cache account ≠ .error error := by
  refine ⟨?_, ?_, exists_plan_of_approved, resume_ne_error⟩
  · intro early turn late hcut id chainId request hmem
    obtain ⟨attempt, hfounds, hchain, hsound, hserves⟩ := exists_served hcut hmem
    refine ⟨attempt, hfounds, hchain.symm, hsound.listed.chain,
      Plan.reaches_of_ofIntent hsound.listed hsound.planned, ?_⟩
    cases hrequest : request.isApproval with
    | true =>
      left
      exact approval_of_asks (hserves.asks_of_isApproval hsound hrequest) hsound hmem
    | false =>
      right
      exact hserves.exists_plan hsound hrequest
  · intro chain hchain hunreached id request hmem
    obtain ⟨early, turn, late, hcut, hmem⟩ := exists_turn_of_handOut hmem
    obtain ⟨attempt, -, hid, hsound, -⟩ := exists_served hcut hmem
    rw [Chain.eq_of_id hchain hsound.listed.chain hid] at hunreached
    exact hunreached (Plan.reaches_of_ofIntent hsound.listed hsound.planned)

theorem handed_out_only_where_reached_of_raceRun :
    (∃ early turn late attempt,
      ({} : Flow).history trialSettings raceRun = early ++ turn :: late ∧
      .handOut 1 8453 (trialGift 10000000) ∈ turn.effects ∧
      Founds trialSettings (early ++ [turn]) attempt turn.after.desk.epoch ∧
      trialSettings.contracts.Reaches attempt.intent.chain) ∧
    (∃ chain ∈ Chain.all, ¬trialSettings.contracts.Reaches chain ∧
      ∀ id request, .handOut id chain.id request ∉ (({} : Flow).run trialSettings raceRun).2) ∧
    (({} : Flow).reached trialSettings (raceRun.take 4)).desk.status = .approved ∧
      ∃ plan, Plan.ofIntent (({} : Flow).reached trialSettings (raceRun.take 4)).desk.intent
        trialSettings.campaign trialSettings.contracts = .ok plan := by
  refine ⟨?_, ?_, ?_⟩
  · obtain ⟨turn, late, hcut, hmem⟩ := exists_execution_in_raceRun
    obtain ⟨attempt, hfounds, -, -, hreaches, -⟩ :=
      (handed_out_only_where_reached trialSettings raceRun).1 _ _ _ hcut 1 8453 _ hmem
    exact ⟨_, turn, late, attempt, hcut, hmem, hfounds, hreaches⟩
  · let wormhole := Chain.relayed 43114 "Avalanche" "AVAX" .wormhole none 900 20
    have hchain : wormhole ∈ Chain.all := by decide
    have hunreached : ¬trialSettings.contracts.Reaches wormhole := by
      rintro (hsettlement | ⟨hroute, -⟩)
      · exact absurd (congrArg Chain.id hsettlement) (by decide)
      · cases hroute
    exact ⟨wormhole, hchain, hunreached,
      (handed_out_only_where_reached trialSettings raceRun).2.1 wormhole hchain hunreached⟩
  · have hstatus :
        (({} : Flow).reached trialSettings (raceRun.take 4)).desk.status = .approved := by
      decide +kernel
    exact ⟨hstatus,
      (handed_out_only_where_reached trialSettings (raceRun.take 4)).2.2.1 hstatus⟩

end DonationFlow.Flow
