import DonationFlow.Proofs.Flow.Acceptance

/-!
# Approvals and the executions they back

An approval is handed out by the turn that accepts its submission, then the
executor gives it a hash, then it is mined; only after these three turns the
status is `approved`.  `Vouched` carries this trail along a run.  Main statement:
`executed_on_approval_or_allowance`, by which every execution of a token has
such a trail behind it or an allowance that covers it.
-/

namespace DonationFlow

namespace Turn

/-- The turn accepts the attempt and hands out, for the call of the id, its
approval: of the token's contract, for the contract that the execution goes to,
and up to the greatest amount. -/
structure Asks (settings : Settings) (turn : Turn) (id : Nat) (attempt : Attempt) : Prop where
  accepted : turn.accepted? settings = some attempt
  native : attempt.intent.token.isNative = false
  handsOut : ∃ contract, attempt.intent.token.address = some contract ∧
    turn.effects = [.handOut id attempt.intent.chain.id
      ⟨contract, Word.zero, .approve contract attempt.plan.request.target Word.top⟩]

/-- The receipt of the approval that the call handed out as `hash` arrives in the
turn, and it is mined. -/
structure Mines (turn : Turn) (id : Nat) (hash : TxHash) : Prop where
  move : turn.move = .mined id (.ok true)
  stage : ∃ call, turn.before.find? id = some call ∧ call.stage = .approvalSent hash

end Turn

namespace Flow

/-- The approval of the attempt was handed out, accepted by the executor and
mined, in this order and before the epoch moved on. -/
def Approved (settings : Settings) (past : List Turn) (attempt : Attempt) : Prop :=
  ∃ asked given mined id hash, [asked, given, mined].Sublist past ∧
    asked.Asks settings id attempt ∧ given.given? = some (id, hash) ∧ mined.Mines id hash ∧
    mined.before.desk.epoch = attempt.epoch

/-- The turns that brought the call to its stage, on the way to its approval. -/
def Trail (settings : Settings) (past : List Turn) (call : OpenCall) : Prop :=
  match call.stage with
  | .approving => ∃ asked ∈ past, asked.Asks settings call.id call.attempt
  | .approvalSent hash => ∃ asked given, [asked, given].Sublist past ∧
      asked.Asks settings call.id call.attempt ∧ given.given? = some (call.id, hash)
  | .approved => Approved settings past call.attempt
  | .executing | .sent _ => True

structure Vouched (settings : Settings) (past : List Turn) (flow : Flow) : Prop where
  owned : flow.Owned
  calls : ∀ call ∈ flow.calls, Trail settings past call
  approved : flow.desk.status = .approved →
    ∃ attempt, attempt.epoch = flow.desk.epoch ∧ Approved settings past attempt

section Trails

variable {settings : Settings} {past : List Turn} {flow after : Flow} {move : Move}
  {effects : List Effect}

theorem Approved.mono {attempt : Attempt} {more : List Turn} (h : Approved settings past attempt)
    (hmore : past.Sublist more) : Approved settings more attempt := by
  obtain ⟨asked, given, mined, id, hash, hsublist, htrail⟩ := h
  exact ⟨asked, given, mined, id, hash, hsublist.trans hmore, htrail⟩

theorem Trail.mono {call : OpenCall} {more : List Turn} (h : Trail settings past call)
    (hmore : past.Sublist more) : Trail settings more call := by
  unfold Trail at h ⊢
  cases hstage : call.stage with
  | approving =>
    rw [hstage] at h
    obtain ⟨asked, hmem, hasks⟩ := h
    exact ⟨asked, hmore.subset hmem, hasks⟩
  | approvalSent hash =>
    rw [hstage] at h
    obtain ⟨asked, given, hsublist, htrail⟩ := h
    exact ⟨asked, given, hsublist.trans hmore, htrail⟩
  | approved =>
    rw [hstage] at h
    exact Approved.mono h hmore
  | executing | sent => trivial

theorem Approved.accepted {attempt : Attempt} (h : Approved settings past attempt) :
    ∃ asked ∈ past, asked.accepted? settings = some attempt ∧
      attempt.intent.token.isNative = false := by
  obtain ⟨asked, given, mined, id, hash, hsublist, hasks, -⟩ := h
  exact ⟨asked, hsublist.subset List.mem_cons_self, hasks.accepted, hasks.native⟩

/-- A submission that needs an approval asks for one that suits its plan. -/
theorem Step.asks (step : Step settings flow move after effects) {cache : ReadCache}
    {attempt : Attempt} {approval : CallRequest} {id : Nat}
    (haccepted : Turn.accepted? settings ⟨flow, move, after, effects⟩ = some attempt)
    (happroval : Desk.approvalFor settings cache attempt.account attempt.intent = some approval)
    (heffects : effects = [.handOut id attempt.intent.chain.id approval]) :
    Turn.Asks settings ⟨flow, move, after, effects⟩ id attempt := by
  have haccepts := step.accepts haccepted
  obtain ⟨hneeds, spender, contract, hspender, hcontract, rfl⟩ :=
    Desk.approvalFor_eq_some_iff.1 happroval
  obtain rfl : attempt.plan.request.target = spender :=
    Option.some.inj ((Plan.spender?_of_ofIntent haccepts.planned).symm.trans hspender)
  exact ⟨haccepted, (Desk.needsApprovalFor_cases hneeds).1, contract, hcontract, heffects⟩

/-- The status is `approved` because it was, or because an approval of the
current epoch was mined. -/
theorem Step.approved_cases (step : Step settings flow move after effects)
    (hstatus : after.desk.status = .approved) :
    flow.desk.status = .approved ∧ after.desk.epoch = flow.desk.epoch ∨
      ∃ id call hash, move = .mined id (.ok true) ∧ flow.find? id = some call ∧
        call.stage = .approvalSent hash ∧ flow.desk.epoch = call.attempt.epoch ∧
        after.desk.epoch = flow.desk.epoch := by
  cases step with
  | declined | refused | passed | missed | approvalAccepted | superseded | abandoned =>
    exact Or.inl ⟨hstatus, rfl⟩
  | restarted =>
    rw [Desk.typeIf_reset_status] at hstatus
    cases hstatus
  | retyped =>
    rcases flow.desk.typeIf_status _ with hsame | ⟨-, hidle⟩
    · exact Or.inl ⟨hsame.symm.trans hstatus, Desk.typeIf_epoch _ _⟩
    · cases hidle.symm.trans hstatus
  | unplannable =>
    rw [Desk.unplanned_eq] at hstatus
    cases hstatus
  | asked =>
    rw [Desk.enter_eq] at hstatus
    cases hstatus
  | executed | resumed | claimed =>
    rw [Desk.beginExecution_eq] at hstatus
    cases hstatus
  | reported hsettles | settled _ _ hsettles =>
    obtain ⟨hepoch, ⟨hsame, -⟩ | ⟨-, hterminal, -⟩⟩ := settles_inFlight hsettles
    · exact Or.inl ⟨hsame.symm.trans hstatus, hepoch⟩
    · have happroved : Status.approved.isTerminal = true := hstatus ▸ hterminal
      cases happroved
  | executionAccepted =>
    rw [Desk.recordFlight_eq] at hstatus ⊢
    exact Or.inl ⟨hstatus, rfl⟩
  | failed =>
    rw [Desk.failWith_eq] at hstatus
    cases hstatus
  | @approved id call hash hcall hstage hepoch =>
    refine Or.inr ⟨id, call, hash, rfl, hcall, hstage, hepoch, ?_⟩
    rw [Desk.enter_eq]
    rfl

/-- The turn that mines the approval of a call completes its trail. -/
theorem approved_of_mined (h : ∀ call ∈ flow.calls, Trail settings past call) {id : Nat}
    {call : OpenCall} {hash : TxHash} (hcall : flow.find? id = some call)
    (hstage : call.stage = .approvalSent hash) (hepoch : flow.desk.epoch = call.attempt.epoch) :
    Approved settings (past ++ [⟨flow, .mined id (.ok true), after, effects⟩]) call.attempt := by
  have htrail := h call (mem_of_find? hcall)
  rw [Trail, hstage] at htrail
  obtain ⟨asked, given, hsublist, hasks, hgiven⟩ := htrail
  rw [id_of_find? hcall] at hasks hgiven
  exact ⟨asked, given, _, id, hash, hsublist.append (List.Sublist.refl _), hasks, hgiven,
    ⟨rfl, call, hcall, hstage⟩, hepoch⟩

/-- A turn leads from trails to trails. -/
theorem Step.trails (step : Step settings flow move after effects) (hnumbered : flow.Numbered)
    (h : ∀ call ∈ flow.calls, Trail settings past call) {call : OpenCall}
    (hcall : call ∈ after.calls) :
    Trail settings (past ++ [⟨flow, move, after, effects⟩]) call := by
  have hold : ∀ call ∈ flow.calls, Trail settings (past ++ [⟨flow, move, after, effects⟩]) call :=
    fun call hcall => (h call hcall).mono (List.sublist_append_left _ _)
  have hasks := @Step.asks _ _ _ _ _ step
  cases step with
  | declined | restarted | retyped | refused | unplannable | passed | reported | missed =>
    exact hold call hcall
  | failed | superseded | settled | abandoned => exact hold call (mem_drop_iff.1 hcall).1
  | asked _ _ hattempt _ happroval hsubmit =>
    rcases mem_push_iff.1 hcall with hcall | rfl
    · exact hold call hcall
    · obtain ⟨-, rfl, -⟩ := hattempt
      refine ⟨_, List.mem_append_right _ (List.mem_singleton.2 rfl), ?_⟩
      exact hasks (accepted?_of_submit hsubmit) happroval rfl
  | executed | resumed =>
    rcases mem_push_iff.1 hcall with hcall | rfl
    · exact hold call hcall
    · trivial
  | @approvalAccepted id moved hash hmoved hstage =>
    rcases (hnumbered.mem_advance_iff hmoved).1 hcall with rfl | ⟨hcall, -⟩
    · have htrail := h moved (mem_of_find? hmoved)
      rw [Trail, hstage] at htrail
      obtain ⟨asked, hmem, hasks⟩ := htrail
      refine ⟨asked, _, (List.singleton_sublist.2 hmem).append (List.Sublist.refl _), hasks, ?_⟩
      rw [given?_of_submitted hmoved (Or.inl hstage), id_of_find? hmoved]
    · exact hold call hcall
  | @approved id moved hash hmoved hstage hepoch =>
    rcases ((hnumbered.withDesk _).mem_advance_iff hmoved).1 hcall with rfl | ⟨hcall, -⟩
    · show Approved settings _ moved.attempt
      exact approved_of_mined h hmoved hstage hepoch
    · exact hold call hcall
  | executionAccepted hmoved | claimed hmoved =>
    rcases ((hnumbered.withDesk _).mem_advance_iff hmoved).1 hcall with rfl | ⟨hcall, -⟩
    · trivial
    · exact hold call hcall

theorem Vouched.snoc (h : Vouched settings past flow) (move : Move) :
    Vouched settings (past ++ [flow.turn settings move]) (flow.step settings move).1 := by
  have hstep := steps settings flow move
  refine ⟨hstep.owned h.owned, fun call hcall => hstep.trails h.owned.numbered h.calls hcall, ?_⟩
  intro hstatus
  rcases hstep.approved_cases hstatus with ⟨hbefore, hepoch⟩ |
    ⟨id, call, hash, rfl, hcall, hstage, hcurrent, hepoch⟩
  · obtain ⟨attempt, hattempt, happroved⟩ := h.approved hbefore
    exact ⟨attempt, hattempt.trans hepoch.symm, happroved.mono (List.sublist_append_left _ _)⟩
  · exact ⟨call.attempt, hcurrent.symm.trans hepoch.symm,
      approved_of_mined h.calls hcall hstage hcurrent⟩

theorem vouched_history (settings : Settings) (moves : List Move) :
    Vouched settings (({} : Flow).history settings moves) (({} : Flow).reached settings moves) := by
  refine history_induction (fun past flow move h => h.snoc move) ?_ moves
  exact
    { owned := owned_start
      calls := fun _ hcall => nomatch hcall
      approved := fun hstatus => nomatch hstatus }

end Trails

/-- What a request is handed out for, of the submission with the attempt: its
approval, its execution at once, its execution after the approval, or that as
the watcher takes it up with the intent as it stands by then. -/
inductive Serves (settings : Settings) (past : List Turn) (turn : Turn) (attempt : Attempt) :
    Nat → CallRequest → Prop
  | asks {id : Nat} {request : CallRequest} (hasks : turn.Asks settings id attempt)
      (heffects : turn.effects = [.handOut id attempt.intent.chain.id request]) :
      Serves settings past turn attempt id request
  | begins {id : Nat} {cache : ReadCache}
      (hmove : turn.move = .submit cache (some attempt.account))
      (haccepted : turn.accepted? settings = some attempt)
      (happroval : Desk.approvalFor settings cache attempt.account attempt.intent = none) :
      Serves settings past turn attempt id attempt.plan.request
  | claims {id : Nat} (hmove : turn.move = .proceed id)
      (happroved : Approved settings past attempt) :
      Serves settings past turn attempt id attempt.plan.request
  | resumes {id : Nat} {cache : ReadCache} {account : Address} {plan : Plan}
      (hmove : turn.move = .tick cache (some account))
      (hstatus : turn.before.desk.status = .approved)
      (hepoch : attempt.epoch = turn.before.desk.epoch)
      (happroved : Approved settings past attempt)
      (hakin : turn.before.desk.intent.Akin attempt.intent)
      (hunits : turn.before.desk.intent.units.isZero = false)
      (hneeds : turn.before.desk.needsApproval settings cache (some account) = false)
      (hplan : Plan.ofIntent turn.before.desk.intent settings.campaign settings.contracts =
        .ok plan) :
      Serves settings past turn attempt id plan.request

section Serving

variable {settings : Settings} {past : List Turn} {flow after : Flow} {move : Move}
  {effects : List Effect}

theorem Serves.accepted {turn : Turn} {attempt : Attempt} {id : Nat} {request : CallRequest}
    (h : Serves settings past turn attempt id request) :
    attempt ∈ (past ++ [turn]).filterMap (·.accepted? settings) := by
  rw [List.mem_filterMap]
  cases h with
  | asks hasks => exact ⟨turn, by simp, hasks.accepted⟩
  | begins _ haccepted => exact ⟨turn, by simp, haccepted⟩
  | claims _ happroved | resumes _ _ _ happroved =>
    obtain ⟨asked, hmem, haccepted, -⟩ := happroved.accepted
    exact ⟨asked, List.mem_append_left _ hmem, haccepted⟩

theorem not_mem_of_handOut? {id chainId : Nat} {request : CallRequest}
    (h : effects.filterMap Effect.handOut? = []) : .handOut id chainId request ∉ effects := by
  intro hmem
  have hhanded : (id, request) ∈ effects.filterMap Effect.handOut? :=
    List.mem_filterMap.2 ⟨_, hmem, rfl⟩
  rw [h] at hhanded
  cases hhanded

/-- Whatever is handed out serves the submission of the current epoch. -/
theorem Step.serves (step : Step settings flow move after effects)
    (hvouched : Vouched settings past flow)
    (hstanding : flow.desk.status = .approved → ∃ attempt, attempt.epoch = flow.desk.epoch ∧
      Approved settings past attempt ∧ flow.desk.intent.Akin attempt.intent)
    {id chainId : Nat} {request : CallRequest} (hmem : .handOut id chainId request ∈ effects) :
    ∃ attempt, attempt.epoch = after.desk.epoch ∧ chainId = attempt.intent.chain.id ∧
      Serves settings past ⟨flow, move, after, effects⟩ attempt id request := by
  have haccepts := @Step.accepts _ _ _ _ _ step
  have hasks := @Step.asks _ _ _ _ _ step
  cases step with
  | declined | retyped | missed | abandoned => cases hmem
  | restarted => exact absurd hmem (not_mem_of_handOut? (handOut?_editRereads _ _ _))
  | refused | unplannable | passed | approvalAccepted | executionAccepted | failed | superseded =>
    cases List.mem_singleton.1 hmem
  | reported => exact absurd hmem (not_mem_of_handOut? (handOut?_refreshes _))
  | approved =>
    rcases List.mem_cons.1 hmem with hready | hmem
    · cases hready
    · exact absurd hmem (not_mem_of_handOut? (handOut?_approvalRereads _ _))
  | settled =>
    rcases List.mem_append.1 hmem with hmem | hmem
    · exact absurd hmem (not_mem_of_handOut? (handOut?_refreshes _))
    · cases List.mem_singleton.1 hmem
  | @asked _ _ attempt _ _ _ hattempt _ happroval hsubmit =>
    obtain ⟨rfl, rfl, rfl⟩ := Effect.handOut.inj (List.mem_singleton.1 hmem)
    obtain ⟨-, rfl, -⟩ := hattempt
    have hcurrent := (haccepts (accepted?_of_submit hsubmit)).current
    exact ⟨attempt, hcurrent.symm, rfl,
      .asks (hasks (accepted?_of_submit hsubmit) happroval rfl) rfl⟩
  | @executed _ _ attempt _ _ hattempt _ happroval hsubmit =>
    obtain ⟨rfl, rfl, rfl⟩ := Effect.handOut.inj (List.mem_singleton.1 hmem)
    obtain ⟨-, rfl, -⟩ := hattempt
    have hcurrent := (haccepts (accepted?_of_submit hsubmit)).current
    exact ⟨attempt, hcurrent.symm, rfl, .begins rfl (accepted?_of_submit hsubmit) happroval⟩
  | resumed hstatus _ hunits hneeds hattempt hplan =>
    obtain ⟨rfl, rfl, rfl⟩ := Effect.handOut.inj (List.mem_singleton.1 hmem)
    obtain ⟨-, -, hintent⟩ := hattempt
    obtain ⟨attempt, hepoch, happroved, hakin⟩ := hstanding hstatus
    refine ⟨attempt, ?_, ?_,
      .resumes rfl hstatus hepoch happroved hakin hunits hneeds (hintent ▸ hplan)⟩
    · show _ = (flow.desk.beginExecution _).epoch
      rw [Desk.beginExecution_eq, hepoch]
    · rw [hintent, hakin.chain]
  | @claimed id call hcall hstage hepoch hstatus =>
    obtain ⟨rfl, rfl, rfl⟩ := Effect.handOut.inj (List.mem_singleton.1 hmem)
    have htrail := hvouched.calls call (mem_of_find? hcall)
    rw [Trail, hstage] at htrail
    refine ⟨call.attempt, ?_, rfl, .claims rfl htrail⟩
    show _ = (flow.desk.beginExecution _).epoch
    rw [Desk.beginExecution_eq, hepoch]

end Serving

section Runs

variable {settings : Settings} {moves : List Move}

/-- While the status is `approved`, there is an approved submission of the epoch
that the intent is still akin to. -/
theorem standing_of_approved
    (hstatus : (({} : Flow).reached settings moves).desk.status = .approved) :
    ∃ attempt, attempt.epoch = (({} : Flow).reached settings moves).desk.epoch ∧
      Approved settings (({} : Flow).history settings moves) attempt ∧
      (({} : Flow).reached settings moves).desk.intent.Akin attempt.intent := by
  obtain ⟨attempt, hepoch, happroved⟩ := (vouched_history settings moves).approved hstatus
  obtain ⟨asked, hmem, haccepted, -⟩ := happroved.accepted
  obtain ⟨-, -, -, hakin, -⟩ := since_accepted hmem haccepted hepoch
  exact ⟨attempt, hepoch, happroved, hakin⟩

/-- Whatever is handed out in a run serves the submission of its epoch. -/
theorem exists_served {early late : List Turn} {turn : Turn}
    (hcut : ({} : Flow).history settings moves = early ++ turn :: late)
    {id chainId : Nat} {request : CallRequest}
    (hmem : .handOut id chainId request ∈ turn.effects) :
    ∃ attempt, Founds settings (early ++ [turn]) attempt turn.after.desk.epoch ∧
      chainId = attempt.intent.chain.id ∧
      attempt.Sound settings ∧ Serves settings early turn attempt id request := by
  obtain ⟨before, move, later, rfl, rfl, rfl, rfl⟩ := exists_of_history_eq hcut
  have hstep := steps settings (({} : Flow).reached settings before) move
  obtain ⟨attempt, hepoch, hchain, hserves⟩ :=
    hstep.serves (vouched_history settings before) standing_of_approved hmem
  have haccepted : attempt ∈ (({} : Flow).history settings (before ++ [move])).filterMap
      (·.accepted? settings) := by
    rw [history_append]
    exact hserves.accepted
  have hfounds := founds_of_accepted haccepted
  rw [history_append, hepoch] at hfounds
  exact ⟨attempt, hfounds, hchain, sound_of_accepted haccepted, hserves⟩

end Runs

/-- When the turn hands the request out, the allowance that was read last covers
the amount that it moves. -/
def Covers (turn : Turn) (chainId : Nat) (token : Token) (request : CallRequest) : Prop :=
  ∃ cache account,
    (turn.move = .submit cache (some account) ∨ turn.move = .tick cache (some account)) ∧
    request.amount.toNat ≤ (cache.allowance chainId token account request.target).toNat

section Backing

variable {settings : Settings} {past : List Turn} {flow after : Flow} {turn : Turn}
  {attempt : Attempt} {id chainId : Nat} {request : CallRequest}

/-- An approval is told from an execution by what it serves. -/
theorem Serves.asks_of_isApproval (h : Serves settings past turn attempt id request)
    (hsound : attempt.Sound settings) (hrequest : request.isApproval = true) :
    turn.Asks settings id attempt := by
  cases h with
  | asks hasks => exact hasks
  | begins | claims =>
    rw [Plan.isApproval_of_ofIntent hsound.planned] at hrequest
    cases hrequest
  | resumes _ _ _ _ _ _ _ hlive =>
    rw [Plan.isApproval_of_ofIntent hlive] at hrequest
    cases hrequest

theorem isApproval_of_asks (h : turn.Asks settings id attempt)
    (heffects : turn.effects = [.handOut id chainId request]) : request.isApproval = true := by
  obtain ⟨-, -, contract, -, hasked⟩ := h
  rw [heffects] at hasked
  obtain ⟨-, -, rfl⟩ := Effect.handOut.inj (List.cons.inj hasked).1
  rfl

/-- Every execution is the plan of an intent akin to the submitted one. -/
theorem Serves.exists_plan (h : Serves settings past turn attempt id request)
    (hsound : attempt.Sound settings) (hrequest : request.isApproval = false) :
    ∃ intent plan, intent.Akin attempt.intent ∧ intent.units.isZero = false ∧
      Plan.ofIntent intent settings.campaign settings.contracts = .ok plan ∧
      request = plan.request := by
  cases h with
  | asks hasks heffects =>
    rw [isApproval_of_asks hasks heffects] at hrequest
    cases hrequest
  | begins | claims =>
    exact ⟨attempt.intent, attempt.plan, .refl _, hsound.units, hsound.planned, rfl⟩
  | @resumes _ _ plan _ _ _ _ hakin hunits _ hlive =>
    exact ⟨turn.before.desk.intent, plan, hakin, hunits, hlive, rfl⟩

/-- An intent that needs no approval is planned within the known allowance. -/
theorem amount_le_allowance {intent : Intent} {plan : Plan} {cache : ReadCache}
    {account : Address}
    (hplan : Plan.ofIntent intent settings.campaign settings.contracts = .ok plan)
    (hneeds : Desk.needsApprovalFor settings.contracts cache (some account) intent = false)
    (hnative : intent.token.isNative = false) (hunits : intent.units.isZero = false) :
    plan.request.amount.toNat ≤
      (cache.allowance intent.chain.id intent.token account plan.request.target).toNat := by
  rw [Plan.amount_of_ofIntent hplan]
  exact Nat.le_of_not_lt (Desk.not_allowance_lt_of_needsApprovalFor hneeds hnative hunits
    (Plan.spender?_of_ofIntent hplan))

/-- An execution of a token has an approval behind it, or an allowance. -/
theorem Serves.backed (h : Serves settings past turn attempt id request)
    (hsound : attempt.Sound settings) (hrequest : request.isApproval = false)
    (hnative : attempt.intent.token.isNative = false) :
    Approved settings past attempt ∨
      Covers turn attempt.intent.chain.id attempt.intent.token request := by
  cases h with
  | asks hasks heffects =>
    rw [isApproval_of_asks hasks heffects] at hrequest
    cases hrequest
  | @begins cache hmove _ happroval =>
    have hneeds : Desk.needsApprovalFor settings.contracts cache (some attempt.account)
        attempt.intent = false := by
      rw [← Desk.isSome_approvalFor hsound.listed, happroval]
      rfl
    exact Or.inr ⟨cache, attempt.account, Or.inl hmove,
      amount_le_allowance hsound.planned hneeds hnative hsound.units⟩
  | claims _ happroved | resumes _ _ _ happroved => exact Or.inl happroved

/-- The first request of a submission is an approval exactly if one is needed. -/
theorem Step.first_request {cache : ReadCache} {account : Option Address} {effects : List Effect}
    (step : Step settings flow (.submit cache account) after effects)
    (hlisted : flow.desk.intent.Listed)
    (haccepted : Turn.accepted? settings ⟨flow, .submit cache account, after, effects⟩ =
      some attempt) :
    ∃ request, effects = [.handOut flow.next attempt.intent.chain.id request] ∧
      (request.isApproval = true ↔
        flow.desk.needsApproval settings cache account = true) := by
  cases step with
  | missed hmove | failed hmove | superseded hmove => cases hmove
  | refused hsubmit | unplannable _ hsubmit => simp [Turn.accepted?, hsubmit] at haccepted
  | @asked _ _ _ approval _ _ hattempt _ happroval hsubmit =>
    obtain rfl := Option.some.inj ((accepted?_of_submit hsubmit).symm.trans haccepted)
    obtain ⟨hneeds, spender, contract, -, -, rfl⟩ := Desk.approvalFor_eq_some_iff.1 happroval
    rw [hattempt.2.2] at hneeds
    exact ⟨_, rfl, iff_of_true rfl hneeds⟩
  | executed _ _ hattempt hplan happroval hsubmit =>
    obtain rfl := Option.some.inj ((accepted?_of_submit hsubmit).symm.trans haccepted)
    rw [hattempt.2.2] at happroval
    refine ⟨_, rfl, iff_of_false ?_ ?_⟩
    · rw [Plan.isApproval_of_ofIntent hplan]
      exact Bool.false_ne_true
    · rw [Desk.needsApproval, ← Desk.isSome_approvalFor hlisted, happroval]
      exact Bool.false_ne_true

end Backing

/-- Whatever the order of submissions, ticks, edits, reports and answers: every
approval is handed out by the turn that accepts its submission, and of a token
that is not native; every execution is of an intent akin to the submitted one,
goes to the contract that such an approval is for, and for a token has either
its approval mined before it, within the epoch, or an allowance that covers the
amount; and the first request of a submission is an approval exactly if one is
needed. -/
theorem executed_on_approval_or_allowance (settings : Settings) (moves : List Move) :
    (∀ early turn late, ({} : Flow).history settings moves = early ++ turn :: late →
      ∀ id chainId request, .handOut id chainId request ∈ turn.effects →
      ∃ attempt, Founds settings (early ++ [turn]) attempt turn.after.desk.epoch ∧
        chainId = attempt.intent.chain.id ∧
        (request.isApproval = true → turn.Asks settings id attempt) ∧
        (request.isApproval = false →
          (∃ intent plan, intent.Akin attempt.intent ∧
            Plan.ofIntent intent settings.campaign settings.contracts = .ok plan ∧
            request = plan.request ∧ request.target = attempt.plan.request.target) ∧
          (attempt.intent.token.isNative = false → Approved settings early attempt ∨
            Covers turn chainId attempt.intent.token request))) ∧
    (∀ cache account attempt,
      let turn := (({} : Flow).reached settings moves).turn settings (.submit cache account)
      turn.accepted? settings = some attempt →
      ∃ request,
        turn.effects = [.handOut turn.before.next attempt.intent.chain.id request] ∧
        (request.isApproval = true ↔
          turn.before.desk.needsApproval settings cache account = true)) := by
  constructor
  · intro early turn late hcut id chainId request hmem
    obtain ⟨attempt, hfounds, rfl, hsound, hserves⟩ := exists_served hcut hmem
    refine ⟨attempt, hfounds, rfl, hserves.asks_of_isApproval hsound, fun hrequest => ?_⟩
    obtain ⟨intent, plan, hakin, -, hplan, rfl⟩ := hserves.exists_plan hsound hrequest
    have htarget := Plan.target_eq_of_akin hakin hsound.planned hplan
    exact ⟨⟨intent, plan, hakin, hplan, rfl, htarget⟩, hserves.backed hsound hrequest⟩
  · intro cache account attempt turn haccepted
    exact (steps settings _ _).first_request (listed_reached settings moves) haccepted

/-- The gift of settlement currency that the plain settings plan. -/
def trialGift (units : Nat) : CallRequest where
  target := default
  value := Word.zero
  call := .donateToken Word.zero (Intent.default.token.address.getD default) (Word.wrap units)

/-- In the run where the watcher is first, its turn is the one that executes. -/
theorem exists_execution_in_raceRun :
    ∃ turn late, ({} : Flow).history trialSettings raceRun =
        ({} : Flow).history trialSettings (raceRun.take 4) ++ turn :: late ∧
      .handOut 1 8453 (trialGift 10000000) ∈ turn.effects :=
  ⟨(({} : Flow).reached trialSettings (raceRun.take 4)).turn trialSettings raceRun[4], _, rfl,
    by decide +kernel⟩

theorem executed_on_approval_or_allowance_of_raceRun :
    (∃ early turn late attempt,
      ({} : Flow).history trialSettings raceRun = early ++ turn :: late ∧
      .handOut 1 8453 (trialGift 10000000) ∈ turn.effects ∧
      Founds trialSettings (early ++ [turn]) attempt turn.after.desk.epoch ∧
      (Approved trialSettings early attempt ∨
        Covers turn 8453 attempt.intent.token (trialGift 10000000))) ∧
    ∃ attempt request,
      let turn := (({} : Flow).reached trialSettings (raceRun.take 1)).turn trialSettings
        (.submit {} (some default))
      turn.accepted? trialSettings = some attempt ∧
      turn.effects = [.handOut 0 attempt.intent.chain.id request] ∧ request.isApproval = true := by
  constructor
  · obtain ⟨turn, late, hcut, hmem⟩ := exists_execution_in_raceRun
    obtain ⟨attempt, hfounds, -, -, hexecution⟩ :=
      (executed_on_approval_or_allowance trialSettings raceRun).1 _ _ _ hcut 1 8453 _ hmem
    have hnative : ∀ attempt ∈ (({} : Flow).history trialSettings raceRun).filterMap
        (·.accepted? trialSettings), attempt.intent.token.isNative = false := by decide +kernel
    refine ⟨_, turn, late, attempt, hcut, hmem, hfounds, (hexecution rfl).2 (hnative attempt ?_)⟩
    have hturn : [turn].Sublist (turn :: late) := List.singleton_sublist.2 List.mem_cons_self
    rw [hcut]
    exact ((hturn.append_left _).filterMap _).subset hfounds.accepted
  · let turn := (({} : Flow).reached trialSettings (raceRun.take 1)).turn trialSettings
      (.submit {} (some default))
    have hsome : (turn.accepted? trialSettings).isSome = true := by decide +kernel
    obtain ⟨attempt, haccepted⟩ := Option.isSome_iff_exists.1 hsome
    have hneeds : turn.before.desk.needsApproval trialSettings {} (some default) = true := by
      decide +kernel
    obtain ⟨request, heffects, hiff⟩ := (executed_on_approval_or_allowance trialSettings
      (raceRun.take 1)).2 {} (some default) attempt haccepted
    exact ⟨attempt, request, haccepted, heffects, hiff.2 hneeds⟩

end Flow

end DonationFlow
