import DonationFlow.Proofs.Flow.Coherence
import DonationFlow.Proofs.Flow.Disclosure
import DonationFlow.Proofs.Flow.Execution
import DonationFlow.Proofs.Flow.Lockstep
import DonationFlow.Proofs.Flow.Provenance
import Mathlib.Data.List.TakeDrop

/-!
# What a confirmation tells

A confirmation is worded from the record that was made as the executor accepted the
execution, while the call was planned earlier and the intent may have been edited since.
The record, the plan and the request that was handed out last for the call go back to
one attempt.  Main statement: `confirmation_describes_accepted_call`.
-/

namespace DonationFlow

/-- The call is relayed from another chain. -/
def Call.crosses : Call → Bool
  | .crossChain .. => true
  | _ => false

/-- What a donor calls a deposit that serves the purpose. -/
def Action.title : Action → String
  | .donate => "Donation"
  | .wealthBuild => "Wealth-build deposit"
  | .stake => "Stake"

theorem Action.noun_eq_title (action : Action) : action.noun = action.title := by
  cases action <;> rfl

/-- The request for the chain that an effect hands out for the call. -/
def Effect.handedFor? (id : Nat) : Effect → Option (Nat × CallRequest)
  | .handOut owner chainId request => if owner = id then some (chainId, request) else none
  | _ => none

/-- The message names what the request for the chain gives: action, token and a text of
the amount, and for a relayed call the way that it takes. -/
structure Notice.Describes (message : String) (chainId : Nat) (request : CallRequest)
    (action : Action) (token : Token) (chain : Chain) (text : String) : Prop where
  catalog : chain ∈ Chain.all
  id_eq : chain.id = chainId
  purpose : request.call.action? = some action
  listed : token ∈ Token.listed chainId
  contract : request.call.contractOn chainId = token.address
  amount : Amount.toUnits text token.decimals = request.amount
  wording : message =
    let gift := s!"{action.title} of {text} {token.symbol}"
    let wait := Notice.minutes chain.bridgeSeconds
    if request.call.crosses then
      s!"{gift} sent from {chain.name}; it reaches {Chain.settlement.name} in about {wait} min"
    else s!"{gift} confirmed"

/-- Exactly a plan for a bridged chain is a relayed call. -/
theorem Plan.Plans.crosses {intent : Intent} {campaign : Word} {contracts : Contracts}
    {plan : Plan} (h : Plans intent campaign contracts plan) :
    plan.request.call.crosses = plan.bridged := by
  cases h with
  | native | token => cases intent.action <;> rfl
  | currency | relayed => rfl

/-- What is recorded as an attempt is accepted describes its plan. -/
theorem Desk.describes_confirmation {settings : Settings} {attempt : Attempt} (hash : TxHash)
    (hlisted : attempt.intent.Listed)
    (hunits : attempt.intent.units =
      Amount.toUnits attempt.intent.text attempt.intent.token.decimals)
    (hplan : Plan.ofIntent attempt.intent settings.campaign settings.contracts =
      .ok attempt.plan) :
    Notice.Describes (Notice.confirmation (flightOf settings attempt hash))
      attempt.intent.chain.id attempt.plan.request attempt.intent.action attempt.intent.token
      attempt.intent.chain attempt.intent.text where
  catalog := hlisted.chain
  id_eq := rfl
  purpose := (Plan.ofIntent_eq_ok_iff.1 hplan).action?
  listed := hlisted.token
  contract := (Plan.ofIntent_eq_ok_iff.1 hplan).contractOn hlisted
  amount := by rw [Plan.amount_of_ofIntent hplan, hunits]
  wording := by
    have hfound : ∀ chain ∈ Chain.all, Chain.find? chain.id = some chain := by decide
    rw [(Plan.ofIntent_eq_ok_iff.1 hplan).crosses, ← Action.noun_eq_title]
    simp only [Notice.confirmation, flightOf, refreshTarget, hfound _ hlisted.chain]

namespace Flow

/-- What the turns handed out last for the call. -/
def handedLast? (turns : List Turn) (id : Nat) : Option (Nat × CallRequest) :=
  ((turns.flatMap (·.effects)).filterMap (Effect.handedFor? id)).getLast?

/-- The executor gave the hash for the request, the last that was handed out for the call
it gave it to. -/
def AcceptedAs (turns : List Turn) (hash : TxHash) (chainId : Nat) (request : CallRequest) :
    Prop :=
  ∃ early giving late id, turns = early ++ giving :: late ∧ giving.given? = some (id, hash) ∧
    handedLast? early id = some (chainId, request)

/-- What is under execution was handed out last for its call, and what is in flight is
what was recorded as the executor accepted it. -/
structure Described (settings : Settings) (past : List Turn) (flow : Flow) : Prop where
  documented : Documented settings past flow
  handed : ∀ call ∈ flow.calls, call.stage.isUnderExecution = true →
    handedLast? past call.id = some (call.attempt.intent.chain.id, call.attempt.plan.request)
  flight : ∀ flight, flow.desk.inFlight = some flight → ∃ id attempt,
    (∃ turn ∈ past, turn.Opens settings id attempt) ∧
      flight = Desk.flightOf settings attempt flight.hash ∧
      AcceptedAs past flight.hash attempt.intent.chain.id attempt.plan.request

section Handing

variable {past : List Turn} {turn : Turn} {id chainId : Nat} {request : CallRequest}

theorem handedLast?_of_handed (h : turn.effects = [.handOut id chainId request]) :
    handedLast? (past ++ [turn]) id = some (chainId, request) := by
  simp [handedLast?, h, Effect.handedFor?]

theorem handedLast?_of_not_handed
    (h : ∀ chainId request, .handOut id chainId request ∉ turn.effects) :
    handedLast? (past ++ [turn]) id = handedLast? past id := by
  have hnone : turn.effects.filterMap (Effect.handedFor? id) = [] := by
    rw [List.filterMap_eq_nil_iff]
    intro effect hmem
    unfold Effect.handedFor?
    split
    · rename_i owner chainId request
      rw [if_neg]
      rintro rfl
      exact h chainId request hmem
    · rfl
  simp [handedLast?, hnone]

theorem AcceptedAs.mono {hash : TxHash} (h : AcceptedAs past hash chainId request)
    (later : List Turn) : AcceptedAs (past ++ later) hash chainId request := by
  obtain ⟨early, giving, late, id, rfl, hgiven, hhanded⟩ := h
  exact ⟨early, giving, late ++ later, id, by simp, hgiven, hhanded⟩

end Handing

section Steps

variable {settings : Settings} {past : List Turn} {flow after : Flow} {move : Move}
  {effects : List Effect}

/-- A step hands out one request at most: for a call that it opens, or for one whose
approval was mined. -/
theorem Step.handed (step : Step settings flow move after effects) {id chainId : Nat}
    {request : CallRequest} (hmem : .handOut id chainId request ∈ effects) :
    effects = [.handOut id chainId request] ∧
      (id = flow.next ∨ ∃ call, flow.find? id = some call ∧ call.stage = .approved) := by
  cases step with
  | declined | retyped | missed | abandoned => cases hmem
  | restarted => exact absurd hmem (not_mem_of_handOut? (handOut?_editRereads _ _ _))
  | refused | unplannable | passed | approvalAccepted | executionAccepted | failed | superseded =>
    cases List.mem_singleton.1 hmem
  | reported => exact absurd hmem (not_mem_of_handOut? (handOut?_refreshes _))
  | approved =>
    rcases List.mem_cons.1 hmem with hready | hmem
    · cases hready
    · exact absurd hmem (not_mem_of_handOut? (handOut?_approvalRereads _ _))
  | settled =>
    rcases List.mem_append.1 hmem with hmem | hmem
    · exact absurd hmem (not_mem_of_handOut? (handOut?_refreshes _))
    · cases List.mem_singleton.1 hmem
  | asked | executed | resumed =>
    obtain ⟨rfl, rfl, rfl⟩ := Effect.handOut.inj (List.mem_singleton.1 hmem)
    exact ⟨rfl, Or.inl rfl⟩
  | claimed hcall hstage =>
    obtain ⟨rfl, rfl, rfl⟩ := Effect.handOut.inj (List.mem_singleton.1 hmem)
    exact ⟨rfl, Or.inr ⟨_, hcall, hstage⟩⟩

/-- Nothing more is handed out for a call under execution. -/
theorem Step.not_handed (step : Step settings flow move after effects) (h : flow.Numbered)
    {call : OpenCall} (hcall : call ∈ flow.calls) (hstage : call.stage.isUnderExecution = true)
    (chainId : Nat) (request : CallRequest) : .handOut call.id chainId request ∉ effects := by
  intro hmem
  obtain ⟨-, hnew | ⟨other, hother, happroved⟩⟩ := step.handed hmem
  · exact absurd hnew (Nat.ne_of_lt (h.below call hcall))
  · obtain rfl := h.eq_of_id (mem_of_find? hother) hcall (id_of_find? hother)
    rw [happroved] at hstage
    cases hstage

theorem Described.snoc (h : Described settings past flow)
    (step : Step settings flow move after effects) :
    Described settings (past ++ [⟨flow, move, after, effects⟩]) after where
  documented := h.documented.snoc step
  handed := by
    intro call hcall hstage
    by_cases hhands : handOutExecution call.id call.attempt ∈ effects
    · exact handedLast?_of_handed (step.handed hhands).1
    · obtain ⟨old, hold, hid, hattempt, hbefore⟩ | ⟨-, hopened⟩ :=
        step.begins h.documented.owned.numbered hcall
      · have hbefore := (hbefore hstage).resolve_right hhands
        have hnot := step.not_handed h.documented.owned.numbered hold hbefore
        rw [← hid, ← hattempt, handedLast?_of_not_handed hnot]
        exact h.handed old hold hbefore
      · exact absurd (hopened hstage) hhands
  flight := by
    intro flight hflight
    rcases step.flight hflight with hbefore | ⟨id, call, hcall, hstage, -, rfl, hrecorded⟩
    · obtain ⟨id, attempt, ⟨turn, hturn, hopens⟩, hrecorded, haccepted⟩ := h.flight flight hbefore
      exact ⟨id, attempt, ⟨turn, List.mem_append_left _ hturn, hopens⟩, hrecorded,
        haccepted.mono _⟩
    · obtain rfl := id_of_find? hcall
      have hmem := mem_of_find? hcall
      obtain ⟨opening, hopening, hopens⟩ := (h.documented.calls call hmem).opened
      exact ⟨call.id, call.attempt, ⟨opening, List.mem_append_left _ hopening, hopens⟩, hrecorded,
        past, _, [], call.id, rfl, given?_of_submitted hcall (Or.inr hstage),
        h.handed call hmem (by rw [hstage]; rfl)⟩

/-- A success is told in the words of what was in flight. -/
theorem told_of_applies {hash : TxHash} (h : (flow.turn settings move).Applies hash) :
    ∃ flight, flow.desk.inFlight = some flight ∧ flight.hash = hash ∧
      (flow.turn settings move).notices = [.confirmed (Notice.confirmation flight) hash] := by
  obtain ⟨outcome, settled, hsettles, -⟩ := settles_of_delivered h.delivered
  have hpending : flow.desk.status = .pending := h.status.1
  have hsuccess : (flow.step settings move).1.desk.status = .success := h.status.2
  have hunprocessed : flow.desk.processed.get? hash = none := h.unprocessed
  generalize hafter : (flow.step settings move).1.desk = desk at hsettles hsuccess
  cases hsettles with
  | known _ hprocessed => cases hunprocessed.symm.trans hprocessed
  | @succeeded flight _ hflight hhash =>
    refine ⟨flight, hflight, hhash, Turn.notices_eq_of_tells ?_⟩
    show flow.desk.Tells (flow.step settings move).1.desk _
    rw [hafter]
    exact Desk.tells_applySuccess flow.desk flight hash
  | failed =>
    rw [Desk.applyFailure_eq] at hsuccess
    cases hsuccess
  | strayed | lost => cases hpending.symm.trans hsuccess

/-- A confirmation that is told is that of what was in flight, which is known by its
hash. -/
theorem exists_flight_of_told (howned : flow.Owned) {message : String} {hash : TxHash}
    (h : .confirmed message hash ∈ (flow.turn settings move).notices) :
    ∃ flight, flow.desk.inFlight = some flight ∧ flight.hash = hash ∧
      message = Notice.confirmation flight := by
  rcases spares_or_applies ((steps settings flow move).ends howned) with hspares | ⟨_, happlies⟩
  · exact absurd h (hspares.untold message hash)
  · obtain ⟨flight, hflight, hhash, htold⟩ := told_of_applies happlies
    rw [htold, List.mem_singleton, Notice.confirmed.injEq] at h
    exact ⟨flight, hflight, hhash.trans h.2.symm, h.1⟩

end Steps

theorem described_history (settings : Settings) (moves : List Move) :
    Described settings (({} : Flow).history settings moves)
      (({} : Flow).reached settings moves) := by
  refine history_induction (fun past flow move h => h.snoc (steps settings flow move)) ?_ moves
  exact
    { documented := documented_history settings []
      handed := fun _ hcall => nomatch hcall
      flight := fun _ hflight => nomatch hflight }

/-- What was recorded of the execution in flight describes the request that the executor
accepted. -/
theorem describes_of_flight {settings : Settings} {moves : List Move} {flight : InFlight}
    (h : (({} : Flow).reached settings moves).desk.inFlight = some flight) :
    ∃ chainId request action token chain text,
      AcceptedAs (({} : Flow).history settings moves) flight.hash chainId request ∧
      Notice.Describes (Notice.confirmation flight) chainId request action token chain text := by
  obtain ⟨id, attempt, ⟨opening, hopening, hopens⟩, hrecorded, haccepted⟩ :=
    (described_history settings moves).flight flight h
  obtain ⟨early, move, late, -, rfl⟩ := exists_of_mem_history hopening
  have hcoherent := coherent_reached settings early
  have hintent : attempt.intent = (({} : Flow).reached settings early).desk.intent := hopens.intent
  refine ⟨_, _, attempt.intent.action, attempt.intent.token, attempt.intent.chain,
    attempt.intent.text, haccepted, ?_⟩
  rw [hrecorded]
  refine Desk.describes_confirmation flight.hash ?_ ?_ hopens.plan <;> rw [hintent]
  · exact hcoherent.listed
  · exact hcoherent.units

/-! ## Fresh runs -/

/-- Where no hash is given twice, the turns before the one that gives it do not. -/
theorem span_given {early late : List Turn} {giving : Turn} {id : Nat} {hash : TxHash}
    (h : ((givens (early ++ giving :: late)).map (·.2)).Nodup)
    (hgiven : giving.given? = some (id, hash)) :
    (early ++ giving :: late).span (fun turn => turn.given?.map (·.2) ≠ some hash) =
      (early, giving :: late) := by
  rw [givens, List.filterMap_append, List.filterMap_cons_some hgiven, List.map_append,
    List.map_cons, List.nodup_append] at h
  have hearly : ∀ turn ∈ early, decide (turn.given?.map (·.2) ≠ some hash) = true := by
    intro turn hturn
    rw [decide_eq_true_iff]
    intro hgives
    obtain ⟨pair, hpair, rfl⟩ := Option.map_eq_some_iff.1 hgives
    exact h.2.2 pair.2 (List.mem_map_of_mem (mem_givens hturn hpair)) pair.2 List.mem_cons_self rfl
  rw [List.span_eq_takeWhile_dropWhile, List.takeWhile_append_of_pos hearly,
    List.dropWhile_append_of_pos hearly, List.takeWhile_cons_of_neg, List.dropWhile_cons_of_neg,
    List.append_nil] <;> simp [hgiven]

/-- Where no hash is given twice, a hash is given for one request. -/
theorem AcceptedAs.unique {turns : List Turn} (h : ((givens turns).map (·.2)).Nodup)
    {hash : TxHash} {chainId otherId : Nat} {request other : CallRequest}
    (hleft : AcceptedAs turns hash chainId request) (hright : AcceptedAs turns hash otherId other) :
    otherId = chainId ∧ other = request := by
  obtain ⟨early, giving, late, id, rfl, hgiven, hhanded⟩ := hleft
  obtain ⟨otherEarly, otherGiving, otherLate, ownerId, hcut, hotherGiven, hotherHanded⟩ := hright
  have hspan := span_given (hcut ▸ h) hotherGiven
  rw [← hcut, span_given h hgiven] at hspan
  obtain ⟨rfl, hrest⟩ := Prod.mk.inj hspan
  obtain ⟨rfl, -⟩ := List.cons.inj hrest
  obtain ⟨rfl, -⟩ := Prod.mk.inj (Option.some.inj (hgiven.symm.trans hotherGiven))
  exact (Prod.mk.inj (Option.some.inj (hhanded.symm.trans hotherHanded))).imp Eq.symm Eq.symm

/-- If the executor never gives one hash twice, a confirmation of a hash describes the one
request that it was given for: its text writes the amount that the request moves, and the
way is told exactly if the call is relayed, whatever was edited meanwhile and whoever
took the execution up. -/
theorem confirmation_describes_accepted_call (settings : Settings) (moves : List Move)
    (hfresh : Fresh settings moves) (past late : List Turn) (turn : Turn)
    (hcut : ({} : Flow).history settings moves = past ++ turn :: late)
    (message : String) (hash : TxHash) (htold : .confirmed message hash ∈ turn.notices) :
    ∃ chainId request action token chain text,
      AcceptedAs past hash chainId request ∧
      (∀ otherId other, AcceptedAs (({} : Flow).history settings moves) hash otherId other →
        otherId = chainId ∧ other = request) ∧
      Notice.Describes message chainId request action token chain text := by
  rw [hcut]
  have hnodup : ((givens (past ++ turn :: late)).map (·.2)).Nodup := hcut ▸ hfresh
  obtain ⟨before, move, later, -, rfl, rfl, -⟩ := exists_of_history_eq hcut
  obtain ⟨flight, hflight, rfl, rfl⟩ := exists_flight_of_told (owned_reached settings before) htold
  obtain ⟨chainId, request, action, token, chain, text, haccepted, hdescribes⟩ :=
    describes_of_flight hflight
  refine ⟨chainId, request, action, token, chain, text, haccepted, ?_, hdescribes⟩
  exact fun otherId other hother => (haccepted.mono _).unique hnodup hother

/-- The hash that the executor gives for the execution. -/
def resumedHash : TxHash := ⟨3, by decide⟩

/-- The watcher takes up an edited amount, and it is edited again while it is in flight. -/
def resumedRun : List Move :=
  retypedRun ++ [.submitted 1 (.ok resumedHash), .edit none { amount := some "7" },
    .mined 1 (.ok true)]

/-- A deposit of two ether for the purpose is accepted by the executor. -/
def etherRun (action : Action) : List Move :=
  [.edit none { action := some action, token := some "ETH", amount := some "2" },
    .submit {} (some default), .submitted 0 (.ok trialHash)]

/-- The request for a deposit of two ether by the call. -/
def etherGift (call : Call) : CallRequest := ⟨default, Word.wrap 2000000000000000000, call⟩

theorem confirmation_describes_accepted_call_of_resumedRun :
    let crossed := ({} : Flow).reached bridgeSettings crossingRun
    let crossedMessage :=
      "Donation of 1 ETH sent from Ethereum; it reaches Base in about 3 min"
    (Fresh trialSettings resumedRun ∧ ∃ action token chain text, Notice.Describes
      "Donation of 25 USDC confirmed" 8453 (trialGift 25000000) action token chain text) ∧
    (Fresh bridgeSettings (crossingRun ++ [.mined 0 (.ok true)]) ∧
      .confirmed crossedMessage trialHash ∈
        (crossed.turn bridgeSettings (.mined 0 (.ok true))).notices ∧
      ∃ chainId request action token chain text,
        AcceptedAs (({} : Flow).history bridgeSettings crossingRun) trialHash chainId request ∧
        Notice.Describes crossedMessage chainId request action token chain text) ∧
    (∃ token chain text, Notice.Describes "Stake of 2 ETH confirmed" 8453
      (etherGift (.stakeNative Word.zero)) .stake token chain text) ∧
    ∃ token chain text, Notice.Describes "Wealth-build deposit of 2 ETH confirmed" 8453
      (etherGift (.wealthBuildNative Word.zero)) .wealthBuild token chain text := by
  intro crossed crossedMessage
  have hfresh : Fresh trialSettings resumedRun := by
    show List.Nodup _
    decide +kernel
  have hcrossedFresh : Fresh bridgeSettings (crossingRun ++ [.mined 0 (.ok true)]) := by
    show List.Nodup _
    decide +kernel
  have hether : ∀ action call message,
      Fresh trialSettings (etherRun action ++ [.mined 0 (.ok true)]) →
      .confirmed message trialHash ∈ ((({} : Flow).reached trialSettings (etherRun action)).turn
        trialSettings (.mined 0 (.ok true))).notices →
      AcceptedAs (({} : Flow).history trialSettings (etherRun action ++ [.mined 0 (.ok true)]))
        trialHash 8453 (etherGift call) →
      call.action? = some action →
      ∃ token chain text,
        Notice.Describes message 8453 (etherGift call) action token chain text := by
    intro action call message hfresh htold haccepted hpurpose
    obtain ⟨chainId, request, told, token, chain, text, -, hunique, hdescribes⟩ :=
      confirmation_describes_accepted_call trialSettings _ hfresh _ [] _
        (history_append (etherRun action) _) message trialHash htold
    obtain ⟨rfl, rfl⟩ := hunique _ _ haccepted
    obtain rfl := Option.some.inj (hdescribes.purpose.symm.trans hpurpose)
    exact ⟨token, chain, text, hdescribes⟩
  refine ⟨⟨hfresh, ?_⟩, ⟨hcrossedFresh, ?_⟩, ?_, ?_⟩
  · let past := ({} : Flow).history trialSettings (resumedRun.take 8)
    let turn := (({} : Flow).reached trialSettings (resumedRun.take 8)).turn trialSettings
      resumedRun[8]
    have haccepted : AcceptedAs (({} : Flow).history trialSettings resumedRun) resumedHash 8453
        (trialGift 25000000) :=
      ⟨({} : Flow).history trialSettings (resumedRun.take 6), _, _, 1, rfl, by decide +kernel,
        by decide +kernel⟩
    obtain ⟨chainId, request, action, token, chain, text, -, hunique, hdescribes⟩ :=
      confirmation_describes_accepted_call trialSettings resumedRun hfresh past [] turn rfl
        "Donation of 25 USDC confirmed" resumedHash (by decide +kernel)
    obtain ⟨rfl, rfl⟩ := hunique 8453 (trialGift 25000000) haccepted
    exact ⟨action, token, chain, text, hdescribes⟩
  · have htold : .confirmed crossedMessage trialHash ∈
        (crossed.turn bridgeSettings (.mined 0 (.ok true))).notices := by decide +kernel
    obtain ⟨chainId, request, action, token, chain, text, haccepted, -, hdescribes⟩ :=
      confirmation_describes_accepted_call bridgeSettings _ hcrossedFresh _ [] _
        (history_append crossingRun _) crossedMessage trialHash htold
    exact ⟨htold, chainId, request, action, token, chain, text, haccepted, hdescribes⟩
  · refine hether .stake _ _ ?_ (by decide +kernel) ?_ rfl
    · show List.Nodup _
      decide +kernel
    · exact ⟨({} : Flow).history trialSettings ((etherRun .stake).take 2), _, _, 0, rfl,
        by decide +kernel, by decide +kernel⟩
  · refine hether .wealthBuild _ _ ?_ (by decide +kernel) ?_ rfl
    · show List.Nodup _
      decide +kernel
    · exact ⟨({} : Flow).history trialSettings ((etherRun .wealthBuild).take 2), _, _, 0, rfl,
        by decide +kernel, by decide +kernel⟩

end Flow

end DonationFlow
