import DonationFlow.Proofs.Flow.Endings

/-!
# What is handed to the executor

Every request that is handed out belongs to a submission that was accepted, and
of each submission at most one approval and at most one execution is handed
out, whoever carries it on.  The epoch of its attempt names a submission.
-/

namespace DonationFlow

/-- Whether the request is for an approval, rather than for the execution. -/
def CallRequest.isApproval (request : CallRequest) : Bool :=
  match request.call with
  | .approve .. => true
  | _ => false

/-- The request that an effect hands out, with the id of the call. -/
def Effect.handOut? : Effect → Option (Nat × CallRequest)
  | .handOut id _ request => some (id, request)
  | _ => none

/-- The statuses in which the execution is still to be handed out. -/
def Status.precedesExecution : Status → Bool
  | .approving | .approved => true
  | _ => false

/-- A request that was handed out, and the attempt it was handed out for. -/
structure HandOut where
  attempt : Attempt
  request : CallRequest

namespace Turn

/-- The requests that the turn hands out, each with the attempt of the call that
hands it out. -/
def handOuts (turn : Turn) : List HandOut :=
  (turn.effects.filterMap Effect.handOut?).filterMap fun (id, request) =>
    (turn.after.find? id).map fun call => ⟨call.attempt, request⟩

/-- The requests that the turn hands out, whoever does it. -/
def requests (turn : Turn) : List CallRequest :=
  (turn.effects.filterMap Effect.handOut?).map (·.2)

/-- Whether the status came to be `pending` in the turn. -/
def entersPending (turn : Turn) : Bool :=
  turn.before.desk.status ≠ .pending && turn.after.desk.status = .pending

/-- What a turn hands out: nothing, the approval or the execution of the
submission that it accepts, or the execution of one accepted before. -/
inductive Hands (settings : Settings) (turn : Turn) : Prop
  | nothing (haccepted : turn.accepted? settings = none)
      (heffects : turn.effects.filterMap Effect.handOut? = [])
      (hepoch : turn.before.desk.epoch ≤ turn.after.desk.epoch)
      (hprogress : turn.after.desk.status.isInProgress = true →
        turn.after.desk.epoch = turn.before.desk.epoch ∧
        turn.before.desk.status.isInProgress = true ∧
        turn.after.desk.status.precedesExecution = turn.before.desk.status.precedesExecution)
  | approval {attempt : Attempt} {request : CallRequest}
      (haccepted : turn.accepted? settings = some attempt)
      (hhands : turn.handOuts = [⟨attempt, request⟩]) (hsole : turn.requests = [request])
      (hrequest : request.isApproval = true) (hattempt : attempt.epoch = turn.before.desk.epoch + 1)
      (hepoch : turn.after.desk.epoch = attempt.epoch)
      (hstatus : turn.after.desk.status = .approving)
  | execution {attempt : Attempt} {request : CallRequest}
      (haccepted : turn.accepted? settings = some attempt)
      (hhands : turn.handOuts = [⟨attempt, request⟩]) (hsole : turn.requests = [request])
      (hrequest : request.isApproval = false)
      (hattempt : attempt.epoch = turn.before.desk.epoch + 1)
      (hepoch : turn.after.desk.epoch = attempt.epoch)
      (hidle : turn.before.desk.status.isInProgress = false)
      (hstatus : turn.after.desk.status = .pending)
  | carriedOn {attempt : Attempt} {request : CallRequest}
      (haccepted : turn.accepted? settings = none)
      (hhands : turn.handOuts = [⟨attempt, request⟩]) (hsole : turn.requests = [request])
      (hrequest : request.isApproval = false) (hattempt : attempt.epoch = turn.before.desk.epoch)
      (hepoch : turn.after.desk.epoch = turn.before.desk.epoch)
      (happroved : turn.before.desk.status = .approved)
      (hstatus : turn.after.desk.status = .pending)

end Turn

/-! ## Requests -/

theorem Plan.isApproval_of_approval? {token : Token} {spender : Address} {request : CallRequest}
    (h : Plan.approval? token spender = some request) : request.isApproval = true := by
  unfold Plan.approval? at h
  obtain ⟨contract, -, rfl⟩ := Option.map_eq_some_iff.1 h
  rfl

theorem Plan.isApproval_of_relayed {intent : Intent} {campaign : Word} {contracts : Contracts}
    {request : CallRequest} (h : Plan.relayed intent campaign contracts = .ok request) :
    request.isApproval = false := by
  unfold Plan.relayed at h
  split at h
  · split at h
    · cases hvalue : Plan.relayValue intent with
      | error error => simp [hvalue, bind, Except.bind] at h
      | ok value =>
        simp only [hvalue, bind, Except.bind, pure, Except.pure, Except.ok.injEq] at h
        rw [← h]
        rfl
    · cases h
  · cases h

theorem Plan.isApproval_of_direct {intent : Intent} {campaign : Word} {settlement : Address}
    {request : CallRequest} (h : Plan.direct intent campaign settlement = .ok request) :
    request.isApproval = false := by
  unfold Plan.direct at h
  split at h
  · simp only [Except.ok.injEq] at h
    rw [← h]
    cases intent.action <;> rfl
  · split at h
    · simp only [Except.ok.injEq] at h
      rw [← h]
      rfl
    · cases hcontract : Plan.contractOf intent with
      | error error => simp [hcontract, bind, Except.bind] at h
      | ok contract =>
        simp only [hcontract, bind, Except.bind, pure, Except.pure, Except.ok.injEq] at h
        rw [← h]
        cases intent.action <;> rfl

/-- A plan never asks for an approval. -/
theorem Plan.isApproval_of_ofIntent {intent : Intent} {campaign : Word} {contracts : Contracts}
    {plan : Plan} (h : Plan.ofIntent intent campaign contracts = .ok plan) :
    plan.request.isApproval = false := by
  unfold Plan.ofIntent at h
  split at h
  · cases hrelayed : Plan.relayed intent campaign contracts with
    | error error => simp [hrelayed, Except.map] at h
    | ok request =>
      simp only [hrelayed, Except.map, Except.ok.injEq] at h
      rw [← h]
      exact Plan.isApproval_of_relayed hrelayed
  · cases hdirect : Plan.direct intent campaign contracts.settlement with
    | error error => simp [hdirect, Except.map] at h
    | ok request =>
      simp only [hdirect, Except.map, Except.ok.injEq] at h
      rw [← h]
      exact Plan.isApproval_of_direct hdirect

namespace Flow

/-! ## Turns -/

theorem accepted?_of_call? {settings : Settings} {turn : Turn} {id : Nat}
    (h : turn.move.call? = some id) : turn.accepted? settings = none := by
  unfold Turn.accepted?
  cases hmove : turn.move with
  | submit => simp [hmove, Move.call?] at h
  | _ => rfl

theorem handOuts_eq_nil {turn : Turn} (h : turn.effects.filterMap Effect.handOut? = []) :
    turn.handOuts = [] := by
  rw [Turn.handOuts, h, List.filterMap_nil]

theorem handOuts_eq_singleton {turn : Turn} {id chainId : Nat} {request : CallRequest}
    {call : OpenCall} (heffects : turn.effects = [.handOut id chainId request])
    (hcall : turn.after.find? id = some call) : turn.handOuts = [⟨call.attempt, request⟩] := by
  rw [Turn.handOuts, heffects]
  simp [Effect.handOut?, hcall]

theorem handOut?_editRereads (account : Option Address) (startsOver : Bool) (intent : Intent) :
    (editRereads account startsOver intent).filterMap Effect.handOut? = [] := by
  unfold editRereads
  cases account <;> cases startsOver <;> rfl

theorem handOut?_approvalRereads (settings : Settings) (attempt : Attempt) :
    (approvalRereads settings attempt).filterMap Effect.handOut? = [] := by
  unfold approvalRereads
  split <;> rfl

theorem handOut?_refreshes (settled : Settled) :
    (refreshes settled).filterMap Effect.handOut? = [] := by
  cases settled <;> rfl

/-- A turn that leaves the desk alone, or changes none of what decides on
hand-outs, is one that hands out nothing. -/
theorem hands_nothing {settings : Settings} {turn : Turn}
    (haccepted : turn.accepted? settings = none)
    (heffects : turn.effects.filterMap Effect.handOut? = [])
    (hepoch : turn.after.desk.epoch = turn.before.desk.epoch)
    (hstatus : turn.after.desk.status = turn.before.desk.status ∨
      turn.after.desk.status.isInProgress = false) : turn.Hands settings := by
  apply Turn.Hands.nothing haccepted heffects (Nat.le_of_eq hepoch.symm)
  intro hprogress
  rcases hstatus with hsame | hended
  · rw [hsame] at hprogress ⊢
    exact ⟨hepoch, hprogress, rfl⟩
  · rw [hprogress] at hended
    cases hended

theorem typeIf_status_or (desk : Desk) (amount : Option String) :
    (desk.typeIf amount).status = desk.status ∨
      (desk.typeIf amount).status.isInProgress = false := by
  rcases desk.typeIf_status amount with hsame | ⟨-, hidle⟩
  · exact Or.inl hsame
  · exact Or.inr (congrArg Status.isInProgress hidle)

theorem settles_status_or {desk after : Desk} {hash : TxHash} {outcome : Except FlowError Bool}
    {settled : Settled} (h : Desk.Settles desk hash outcome after settled) :
    after.status = desk.status ∨ after.status.isInProgress = false := by
  obtain ⟨-, ⟨hstatus, -⟩ | ⟨-, hterminal, -⟩⟩ := settles_inFlight h
  · exact Or.inl hstatus
  · exact Or.inr (Status.isInProgress_of_isTerminal hterminal)

theorem Step.hands {settings : Settings} {flow after : Flow} {move : Move} {effects : List Effect}
    (step : Step settings flow move after effects) (howned : flow.Owned)
    (hplanned : flow.Planned settings) : Turn.Hands settings ⟨flow, move, after, effects⟩ := by
  cases step with
  | declined => exact hands_nothing rfl rfl rfl (Or.inl rfl)
  | missed hmove => exact hands_nothing (accepted?_of_call? hmove) rfl rfl (Or.inl rfl)
  | restarted =>
    refine .nothing rfl (handOut?_editRereads _ _ _) ?_ ?_
    · rw [Desk.typeIf_epoch, Desk.reset_eq]
      exact Nat.le_succ _
    · intro hprogress
      rw [Desk.typeIf_reset_status] at hprogress
      cases hprogress
  | retyped => exact hands_nothing rfl rfl (Desk.typeIf_epoch _ _) (typeIf_status_or _ _)
  | refused hsubmit =>
    exact hands_nothing (by simp [Turn.accepted?, hsubmit]) rfl rfl (Or.inl rfl)
  | @unplannable _ _ error _ hsubmit =>
    refine .nothing (by simp [Turn.accepted?, hsubmit]) rfl ?_ ?_ <;> rw [Desk.unplanned_eq]
    · exact Nat.le_succ _
    · intro hprogress
      cases hprogress
  | @asked _ account _ _ _ _ hattempt _ happroval hsubmit =>
    refine .approval (by simp [Turn.accepted?, hsubmit])
      (handOuts_eq_singleton rfl ((howned.numbered.withDesk _).find?_push _ _)) rfl ?_
      hattempt.1 ?_ ?_
    · unfold Desk.approvalFor at happroval
      split at happroval
      · obtain ⟨spender, -, hrequest⟩ := Option.bind_eq_some_iff.1 happroval
        exact Plan.isApproval_of_approval? hrequest
      · cases happroval
    · rw [Desk.enter_eq, Desk.taken_eq]
      exact hattempt.1.symm
    · rw [Desk.enter_eq]
      rfl
  | executed hstatus _ hattempt hplan _ hsubmit =>
    refine .execution (by simp [Turn.accepted?, hsubmit])
      (handOuts_eq_singleton rfl ((howned.numbered.withDesk _).find?_push _ _)) rfl
      (Plan.isApproval_of_ofIntent hplan) hattempt.1 ?_ hstatus ?_
    · rw [Desk.beginExecution_eq, Desk.taken_eq]
      exact hattempt.1.symm
    · rw [Desk.beginExecution_eq]
      rfl
  | passed => exact hands_nothing rfl rfl rfl (Or.inl rfl)
  | resumed hstatus _ _ _ hattempt hplan =>
    refine .carriedOn rfl
      (handOuts_eq_singleton rfl ((howned.numbered.withDesk _).find?_push _ _)) rfl
      (Plan.isApproval_of_ofIntent hplan) hattempt.1 ?_ hstatus ?_
    · rw [Desk.beginExecution_eq]
      rfl
    · rw [Desk.beginExecution_eq]
      rfl
  | reported hsettles =>
    exact hands_nothing rfl (handOut?_refreshes _) (settles_inFlight hsettles).1
      (settles_status_or hsettles)
  | approvalAccepted => exact hands_nothing rfl rfl rfl (Or.inl rfl)
  | executionAccepted =>
    rw [Desk.recordFlight_eq]
    exact hands_nothing rfl rfl rfl (Or.inl rfl)
  | failed hmove =>
    refine hands_nothing (accepted?_of_call? hmove) rfl ?_ (Or.inr ?_)
    · rw [Desk.failWith_eq]
      rfl
    · rw [Desk.failWith_eq]
      rfl
  | superseded hmove => exact hands_nothing (accepted?_of_call? hmove) rfl rfl (Or.inl rfl)
  | abandoned => exact hands_nothing rfl rfl rfl (Or.inl rfl)
  | approved hcall hstage hepoch =>
    have happroving : flow.desk.status = .approving := howned.shows_of_find? hcall hepoch hstage
    refine .nothing rfl (handOut?_approvalRereads _ _) ?_ ?_
    · rw [Desk.enter_eq]
      exact Nat.le_refl _
    · rw [Desk.enter_eq, happroving]
      exact fun _ => ⟨rfl, rfl, rfl⟩
  | claimed hcall _ hepoch hstatus =>
    refine .carriedOn rfl (handOuts_eq_singleton rfl (find?_advance hcall _)) rfl
      (Plan.isApproval_of_ofIntent (hplanned _ (mem_of_find? hcall))) hepoch.symm ?_ hstatus ?_
    · rw [Desk.beginExecution_eq]
      rfl
    · rw [Desk.beginExecution_eq]
      rfl
  | settled _ _ hsettles =>
    refine hands_nothing rfl ?_ (settles_inFlight hsettles).1 (settles_status_or hsettles)
    rw [List.filterMap_append, handOut?_refreshes]
    rfl

/-! ## Runs -/

/-- The submissions that the turns accepted, in order. -/
def acceptances (settings : Settings) (turns : List Turn) : List Nat :=
  (turns.filterMap (·.accepted? settings)).map (·.epoch)

/-- The submissions for which the turns handed out an approval, in order. -/
def approvals (turns : List Turn) : List Nat :=
  ((turns.flatMap (·.handOuts)).filter (·.request.isApproval)).map (·.attempt.epoch)

/-- The submissions for which the turns handed out the execution, in order. -/
def executions (turns : List Turn) : List Nat :=
  ((turns.flatMap (·.handOuts)).filter (!·.request.isApproval)).map (·.attempt.epoch)

/-- The submissions so far, and what was handed out for them.  While the
execution of the current one is still to come, none was handed out for it. -/
structure Counted (settings : Settings) (past : List Turn) (flow : Flow) : Prop where
  owned : flow.Owned
  planned : flow.Planned settings
  accepted_le : ∀ epoch ∈ acceptances settings past, epoch ≤ flow.desk.epoch
  accepted_nodup : (acceptances settings past).Nodup
  approvals_accepted : ∀ epoch ∈ approvals past, epoch ∈ acceptances settings past
  approvals_nodup : (approvals past).Nodup
  executions_accepted : ∀ epoch ∈ executions past, epoch ∈ acceptances settings past
  executions_nodup : (executions past).Nodup
  progress : flow.desk.status.isInProgress = true →
    flow.desk.epoch ∈ acceptances settings past ∧
    (flow.desk.status.precedesExecution = true → flow.desk.epoch ∉ executions past)
  entered : (executions past).length = past.countP (·.entersPending)
  hands : ∀ turn ∈ past, turn.Hands settings

section Counting

variable {settings : Settings} {past : List Turn} {turn : Turn}

theorem acceptances_snoc :
    acceptances settings (past ++ [turn]) =
      acceptances settings past ++ ((turn.accepted? settings).map (·.epoch)).toList := by
  cases haccepted : turn.accepted? settings <;> simp [acceptances, haccepted]

theorem approvals_snoc :
    approvals (past ++ [turn]) = approvals past ++
      (turn.handOuts.filter (·.request.isApproval)).map (·.attempt.epoch) := by
  simp [approvals]

theorem executions_snoc :
    executions (past ++ [turn]) = executions past ++
      (turn.handOuts.filter (!·.request.isApproval)).map (·.attempt.epoch) := by
  simp [executions]

/-- A submission that was not there before may be put at the end. -/
theorem nodup_append_toList {epochs : List Nat} {last : Option Nat} (h : epochs.Nodup)
    (hnew : ∀ epoch ∈ last, epoch ∉ epochs) : (epochs ++ last.toList).Nodup := by
  cases last with
  | none =>
    rw [Option.toList_none, List.append_nil]
    exact h
  | some epoch =>
    rw [Option.toList_some, List.nodup_append]
    refine ⟨h, List.nodup_singleton epoch, ?_⟩
    rintro other hother last hlast rfl
    rw [List.mem_singleton.1 hlast] at hother
    exact hnew epoch rfl hother

/-- A turn adds at most one submission to each list. -/
theorem Counted.extend (h : Counted settings past turn.before) (hhands : turn.Hands settings)
    (howned : turn.after.Owned) (hplanned : turn.after.Planned settings)
    (accepted approved executed : Option Nat)
    (hacceptances : acceptances settings (past ++ [turn]) =
      acceptances settings past ++ accepted.toList)
    (happrovals : approvals (past ++ [turn]) = approvals past ++ approved.toList)
    (hexecutions : executions (past ++ [turn]) = executions past ++ executed.toList)
    (hepoch : turn.before.desk.epoch ≤ turn.after.desk.epoch)
    (haccepted : ∀ epoch ∈ accepted, turn.before.desk.epoch < epoch ∧
      epoch ≤ turn.after.desk.epoch)
    (happroved : ∀ epoch ∈ approved, accepted = some epoch)
    (hexecuted : ∀ epoch ∈ executed, epoch ∉ executions past ∧
      epoch ∈ acceptances settings (past ++ [turn]))
    (hprogress : turn.after.desk.status.isInProgress = true →
      turn.after.desk.epoch ∈ acceptances settings (past ++ [turn]) ∧
      (turn.after.desk.status.precedesExecution = true →
        turn.after.desk.epoch ∉ executions (past ++ [turn])))
    (hentered : turn.entersPending = executed.isSome) :
    Counted settings (past ++ [turn]) turn.after := by
  have hnew : ∀ epoch ∈ accepted, epoch ∉ acceptances settings past := by
    intro epoch hsome hmem
    have hle := h.accepted_le epoch hmem
    have hlt := (haccepted epoch hsome).1
    omega
  have hold : ∀ epoch ∈ acceptances settings past,
      epoch ∈ acceptances settings (past ++ [turn]) := by
    intro epoch hmem
    rw [hacceptances]
    exact List.mem_append_left _ hmem
  refine ⟨howned, hplanned, ?_, ?_, ?_, ?_, ?_, ?_, hprogress, ?_, ?_⟩
  · intro epoch hmem
    rw [hacceptances, List.mem_append, Option.mem_toList] at hmem
    rcases hmem with hmem | hmem
    · exact Nat.le_trans (h.accepted_le epoch hmem) hepoch
    · exact (haccepted epoch hmem).2
  · rw [hacceptances]
    exact nodup_append_toList h.accepted_nodup hnew
  · intro epoch hmem
    rw [happrovals, List.mem_append, Option.mem_toList] at hmem
    rcases hmem with hmem | hmem
    · exact hold epoch (h.approvals_accepted epoch hmem)
    · rw [hacceptances, happroved epoch hmem]
      exact List.mem_append_right _ (List.mem_singleton.2 rfl)
  · rw [happrovals]
    exact nodup_append_toList h.approvals_nodup fun epoch hmem hin =>
      hnew epoch (happroved epoch hmem) (h.approvals_accepted epoch hin)
  · intro epoch hmem
    rw [hexecutions, List.mem_append, Option.mem_toList] at hmem
    rcases hmem with hmem | hmem
    · exact hold epoch (h.executions_accepted epoch hmem)
    · exact (hexecuted epoch hmem).2
  · rw [hexecutions]
    exact nodup_append_toList h.executions_nodup fun epoch hmem => (hexecuted epoch hmem).1
  · rw [hexecutions, List.length_append, List.countP_append, h.entered, List.countP_singleton,
      hentered]
    cases executed <;> rfl
  · intro other hother
    rcases List.mem_append.1 hother with hother | hother
    · exact h.hands other hother
    · rw [List.mem_singleton.1 hother]
      exact hhands

theorem Counted.snoc (h : Counted settings past turn.before) (hturn : turn.Hands settings)
    (howned : turn.after.Owned) (hplanned : turn.after.Planned settings) :
    Counted settings (past ++ [turn]) turn.after := by
  have hnew : ∀ epoch, turn.before.desk.epoch < epoch → epoch ∉ executions past := by
    intro epoch hlt hmem
    have hle := h.accepted_le epoch (h.executions_accepted epoch hmem)
    omega
  have extend := h.extend hturn howned hplanned
  cases hturn with
  | nothing haccepted hnone hepoch hprogress =>
    have hacceptances : acceptances settings (past ++ [turn]) =
        acceptances settings past ++ (none : Option Nat).toList := by
      rw [acceptances_snoc, haccepted]
      rfl
    have happrovals : approvals (past ++ [turn]) =
        approvals past ++ (none : Option Nat).toList := by
      rw [approvals_snoc, handOuts_eq_nil hnone]
      rfl
    have hexecutions : executions (past ++ [turn]) =
        executions past ++ (none : Option Nat).toList := by
      rw [executions_snoc, handOuts_eq_nil hnone]
      rfl
    refine extend none none none hacceptances happrovals hexecutions hepoch
      (fun _ hmem => nomatch hmem) (fun _ hmem => nomatch hmem) (fun _ hmem => nomatch hmem) ?_ ?_
    · intro hafter
      obtain ⟨hsame, hbefore, hprecedes⟩ := hprogress hafter
      obtain ⟨hcurrent, hfree⟩ := h.progress hbefore
      rw [hacceptances, hexecutions, hsame, hprecedes, Option.toList_none, List.append_nil,
        List.append_nil]
      exact ⟨hcurrent, hfree⟩
    · rw [Turn.entersPending, Option.isSome_none, Bool.and_eq_false_imp]
      intro hbefore
      apply decide_eq_false
      intro hafter
      obtain ⟨-, hstarted, hprecedes⟩ := hprogress (by rw [hafter]; rfl)
      rw [hafter] at hprecedes
      cases hstatus : turn.before.desk.status <;> rw [hstatus] at hstarted hprecedes hbefore <;>
        simp_all [Status.isInProgress, Status.precedesExecution]
  | @approval attempt request haccepted hhands _ hrequest hattempt hepoch hstatus =>
    have hacceptances : acceptances settings (past ++ [turn]) =
        acceptances settings past ++ (some attempt.epoch).toList := by
      rw [acceptances_snoc, haccepted]
      rfl
    have happrovals : approvals (past ++ [turn]) =
        approvals past ++ (some attempt.epoch).toList := by
      rw [approvals_snoc, hhands]
      simp [hrequest]
    have hexecutions : executions (past ++ [turn]) =
        executions past ++ (none : Option Nat).toList := by
      rw [executions_snoc, hhands]
      simp [hrequest]
    refine extend _ _ none hacceptances happrovals hexecutions (by omega) ?_
      (fun _ hmem => hmem) (fun _ hmem => nomatch hmem) ?_ ?_
    · rintro epoch ⟨⟩
      omega
    · intro _
      rw [hepoch, hacceptances, hexecutions, Option.toList_none, List.append_nil]
      exact ⟨by simp, fun _ => hnew _ (by omega)⟩
    · rw [Turn.entersPending, hstatus]
      exact Bool.and_false _
  | @execution attempt request haccepted hhands _ hrequest hattempt hepoch hidle hstatus =>
    have hacceptances : acceptances settings (past ++ [turn]) =
        acceptances settings past ++ (some attempt.epoch).toList := by
      rw [acceptances_snoc, haccepted]
      rfl
    have happrovals : approvals (past ++ [turn]) =
        approvals past ++ (none : Option Nat).toList := by
      rw [approvals_snoc, hhands]
      simp [hrequest]
    have hexecutions : executions (past ++ [turn]) =
        executions past ++ (some attempt.epoch).toList := by
      rw [executions_snoc, hhands]
      simp [hrequest]
    have hbefore : turn.before.desk.status ≠ .pending := by
      intro hpending
      rw [hpending] at hidle
      cases hidle
    refine extend _ none _ hacceptances happrovals hexecutions (by omega) ?_
      (fun _ hmem => nomatch hmem) ?_ ?_ ?_
    · rintro epoch ⟨⟩
      omega
    · rintro epoch ⟨⟩
      rw [hacceptances]
      exact ⟨hnew _ (by omega), by simp⟩
    · rw [hepoch, hstatus, hacceptances]
      exact fun _ => ⟨by simp, fun hprecedes => nomatch hprecedes⟩
    · simp [Turn.entersPending, hstatus, hbefore]
  | @carriedOn attempt request haccepted hhands _ hrequest hattempt hepoch happroved hstatus =>
    obtain ⟨hcurrent, hfree⟩ := h.progress (by rw [happroved]; rfl)
    have hacceptances : acceptances settings (past ++ [turn]) =
        acceptances settings past ++ (none : Option Nat).toList := by
      rw [acceptances_snoc, haccepted]
      rfl
    have happrovals : approvals (past ++ [turn]) =
        approvals past ++ (none : Option Nat).toList := by
      rw [approvals_snoc, hhands]
      simp [hrequest]
    have hexecutions : executions (past ++ [turn]) =
        executions past ++ (some attempt.epoch).toList := by
      rw [executions_snoc, hhands]
      simp [hrequest]
    have hcurrent : turn.before.desk.epoch ∈ acceptances settings (past ++ [turn]) := by
      rw [hacceptances]
      exact List.mem_append_left _ hcurrent
    refine extend none none _ hacceptances happrovals hexecutions
      (Nat.le_of_eq hepoch.symm) (fun _ hmem => nomatch hmem) (fun _ hmem => nomatch hmem) ?_ ?_ ?_
    · rintro epoch ⟨⟩
      rw [hattempt]
      exact ⟨hfree (by rw [happroved]; rfl), hcurrent⟩
    · rw [hepoch, hstatus]
      exact fun _ => ⟨hcurrent, fun hprecedes => nomatch hprecedes⟩
    · simp [Turn.entersPending, hstatus, happroved]

theorem counted_history (settings : Settings) (moves : List Move) :
    Counted settings (({} : Flow).history settings moves)
      (({} : Flow).reached settings moves) := by
  refine history_induction (fun past flow move h => ?_) ?_ moves
  · have hstep := steps settings flow move
    exact h.snoc (hstep.hands h.owned h.planned) (hstep.owned h.owned)
      (hstep.planned h.owned.numbered h.planned)
  · exact
      { owned := owned_start
        planned := fun _ hcall => nomatch hcall
        accepted_le := fun _ hmem => nomatch hmem
        accepted_nodup := List.nodup_nil
        approvals_accepted := fun _ hmem => nomatch hmem
        approvals_nodup := List.nodup_nil
        executions_accepted := fun _ hmem => nomatch hmem
        executions_nodup := List.nodup_nil
        progress := fun hprogress => nomatch hprogress
        entered := rfl
        hands := fun _ hmem => nomatch hmem }

theorem count_pending_turn (h : turn.Ends) :
    turn.after.desk.log.count (.status .pending) =
      turn.before.desk.log.count (.status .pending) + if turn.entersPending then 1 else 0 := by
  obtain ⟨notices, htells⟩ := h.tells
  rw [htells.count_status, Turn.entersPending]
  simp

/-- The log tells `pending` each time the status came to be it. -/
theorem count_pending_log (settings : Settings) (moves : List Move) :
    (({} : Flow).reached settings moves).desk.log.count (.status .pending) =
      (({} : Flow).history settings moves).countP (·.entersPending) := by
  suffices h : (({} : Flow).reached settings moves).Owned ∧
      (({} : Flow).reached settings moves).desk.log.count (.status .pending) =
        (({} : Flow).history settings moves).countP (·.entersPending) from h.2
  refine history_induction (P := fun past flow => flow.Owned ∧ flow.desk.log.count _ =
    past.countP (·.entersPending)) (fun past flow move h => ?_) ⟨owned_start, rfl⟩ moves
  have hstep := steps settings flow move
  have hcount := count_pending_turn (hstep.ends h.1)
  refine ⟨hstep.owned h.1, ?_⟩
  rw [List.countP_append, ← h.2, List.countP_singleton]
  exact hcount

theorem requests_of_hands (h : turn.Hands settings) :
    turn.handOuts.map (·.request) = turn.requests := by
  cases h with
  | nothing _ heffects => rw [handOuts_eq_nil heffects, Turn.requests, heffects]; rfl
  | approval _ hhands hsole | execution _ hhands hsole | carriedOn _ hhands hsole =>
    rw [hhands, hsole]
    rfl

/-- No request is handed out but by a call under way. -/
theorem requests_history (settings : Settings) (moves : List Move) :
    ((({} : Flow).history settings moves).flatMap (·.handOuts)).map (·.request) =
      ((({} : Flow).run settings moves).2.filterMap Effect.handOut?).map (·.2) := by
  have hturns := (counted_history settings moves).hands
  rw [← effects_history, List.filterMap_flatMap, List.map_flatMap, List.map_flatMap]
  apply List.flatMap_congr
  intro turn hturn
  exact requests_of_hands (hturns turn hturn)

end Counting

/-- Whatever the order of submissions, ticks, edits, reports and answers, each
submission that is accepted has at most one approval and at most one execution
handed out, nothing else is handed out, and the executions are as many as the
entries into `pending`. -/
theorem handed_out_at_most_once (settings : Settings) (moves : List Move) :
    let turns := ({} : Flow).history settings moves
    (acceptances settings turns).Nodup ∧
    (∀ epoch ∈ acceptances settings turns,
      (approvals turns).count epoch ≤ 1 ∧ (executions turns).count epoch ≤ 1) ∧
    (∀ handOut ∈ turns.flatMap (·.handOuts),
      handOut.attempt.epoch ∈ acceptances settings turns) ∧
    (turns.flatMap (·.handOuts)).map (·.request) =
      ((({} : Flow).run settings moves).2.filterMap Effect.handOut?).map (·.2) ∧
    (executions turns).length = turns.countP (·.entersPending) ∧
    (executions turns).length =
      (({} : Flow).reached settings moves).desk.log.count (.status .pending) := by
  intro turns
  have h := counted_history settings moves
  refine ⟨h.accepted_nodup, ?_, ?_, requests_history settings moves, h.entered, ?_⟩
  · intro epoch _
    exact ⟨List.nodup_iff_count_le_one.1 h.approvals_nodup epoch,
      List.nodup_iff_count_le_one.1 h.executions_nodup epoch⟩
  · intro handOut hmem
    cases hrequest : handOut.request.isApproval with
    | true =>
      apply h.approvals_accepted
      exact List.mem_map_of_mem (List.mem_filter.2 ⟨hmem, hrequest⟩)
    | false =>
      apply h.executions_accepted
      exact List.mem_map_of_mem (List.mem_filter.2 ⟨hmem, by rw [hrequest]; rfl⟩)
  · rw [h.entered, count_pending_log]

/-- The watcher takes up an approved execution just before the submission's own
turn to do so. -/
def raceRun : List Move :=
  let allowed := ReadCache.land {}
    (.allowance 8453 Intent.default.token default default (.ok Word.top))
  [.edit none { amount := some "10" }, .submit {} (some default), .submitted 0 (.ok trialHash),
    .mined 0 (.ok true), .tick allowed (some default), .proceed 0]

theorem handed_out_at_most_once_of_raceRun :
    let turns := ({} : Flow).history trialSettings raceRun
    1 ∈ acceptances trialSettings turns ∧ 1 ∈ approvals turns ∧ 1 ∈ executions turns ∧
      (approvals turns).count 1 ≤ 1 ∧ (executions turns).count 1 ≤ 1 := by
  intro turns
  have haccepted : 1 ∈ acceptances trialSettings turns := by decide +kernel
  obtain ⟨-, hcounts, -⟩ := handed_out_at_most_once trialSettings raceRun
  refine ⟨haccepted, by decide +kernel, by decide +kernel, ?_⟩
  exact hcounts 1 haccepted

end Flow

end DonationFlow
