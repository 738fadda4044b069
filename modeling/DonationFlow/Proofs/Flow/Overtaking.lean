import DonationFlow.Proofs.Flow.OnceOnly
import DonationFlow.Proofs.Flow.Progress

/-!
# Overtaken executions

An execution is overtaken if it was reported confirmed before the executor's
answer was recorded.  In a fresh run this is the only way in which a submission
can be left in progress with nobody to carry it on, and a submission that was
overtaken stays so until an edit starts over.
-/

namespace DonationFlow

/-- The moves by which calls go on without a failure. -/
def Move.GoesWell : Move → Prop
  | .proceed _ | .mined _ (.ok true) => True
  | _ => False

namespace Flow

/-- The hash was reported confirmed before the executor gave it to a call. -/
def Overtaken (turns : List Turn) (hash : TxHash) : Prop :=
  ∃ early turn late id, turns = early ++ turn :: late ∧ turn.given? = some (id, hash) ∧
    ∃ report ∈ early, report.move = .report hash true

/-- Every hash in the table was reported or given to a call.  If no hash was
given twice, that of the execution in flight is in the table only if it was
reported before it was given. -/
structure Explained (past : List Turn) (flow : Flow) : Prop where
  owned : flow.Owned
  traced : Traced (givens past) flow
  processed : ∀ hash applied, flow.desk.processed.get? hash = some applied →
    (∃ report ∈ past, report.move = .report hash true) ∨ ∃ id, (id, hash) ∈ givens past
  flight : ((givens past).map (·.2)).Nodup → ∀ flight, flow.desk.inFlight = some flight →
    flow.desk.processed.get? flight.hash ≠ none → Overtaken past flight.hash

section Explaining

variable {settings : Settings} {flow after : Flow} {move : Move} {effects : List Effect}

theorem Overtaken.snoc {past : List Turn} {hash : TxHash} (h : Overtaken past hash)
    (turn : Turn) : Overtaken (past ++ [turn]) hash := by
  obtain ⟨early, given, late, id, rfl, hgiven, hreport⟩ := h
  refine ⟨early, given, late ++ [turn], id, ?_, hgiven, hreport⟩
  rw [List.append_assoc, List.cons_append]

/-- A step leaves the table as it is, or settles a hash that was reported or that
a call waited for. -/
theorem Step.processed_or_settles (step : Step settings flow move after effects) :
    after.desk.processed = flow.desk.processed ∨
      ∃ hash outcome settled, Desk.Settles flow.desk hash outcome after.desk settled ∧
        ((∃ confirmed, outcome = .ok confirmed ∧ move = .report hash confirmed) ∨
          ∃ call ∈ flow.calls, call.stage = .sent hash) := by
  cases step with
  | declined | refused | passed | missed | approvalAccepted | superseded | abandoned =>
    exact Or.inl rfl
  | restarted =>
    left
    rw [Desk.typeIf_processed, Desk.reset_eq]
  | retyped => exact Or.inl (Desk.typeIf_processed _ _)
  | unplannable =>
    left
    rw [Desk.unplanned_eq]
  | asked =>
    left
    rw [Desk.enter_eq, Desk.taken_eq]
    rfl
  | executed =>
    left
    rw [Desk.beginExecution_eq, Desk.taken_eq]
    rfl
  | resumed | claimed =>
    left
    rw [Desk.beginExecution_eq]
    rfl
  | reported hsettles => exact Or.inr ⟨_, _, _, hsettles, Or.inl ⟨_, rfl, rfl⟩⟩
  | executionAccepted =>
    left
    rw [Desk.recordFlight_eq]
    rfl
  | failed =>
    left
    rw [Desk.failWith_eq]
    rfl
  | approved =>
    left
    rw [Desk.enter_eq]
    rfl
  | settled hcall hstage hsettles =>
    exact Or.inr ⟨_, _, _, hsettles, Or.inr ⟨_, mem_of_find? hcall, hstage⟩⟩

/-- A step does not touch the entry of an execution that is in flight after it. -/
theorem Step.processed_inFlight (step : Step settings flow move after effects)
    {flight : InFlight} (hflight : after.desk.inFlight = some flight) :
    after.desk.processed.get? flight.hash = flow.desk.processed.get? flight.hash := by
  rcases step.processed_or_settles with hsame | ⟨hash, outcome, settled, hsettles, -⟩
  · rw [hsame]
  · exact hsettles.processed_inFlight hflight

theorem givens_snoc {past : List Turn} {turn : Turn} :
    givens (past ++ [turn]) = givens past ++ turn.given?.toList := by
  rw [givens, List.filterMap_append]
  rfl

theorem Explained.snoc {past : List Turn} (h : Explained past flow) (move : Move) :
    Explained (past ++ [flow.turn settings move]) (flow.step settings move).1 := by
  have hstep := steps settings flow move
  have hgrows : ∀ pair ∈ givens past, pair ∈ givens (past ++ [flow.turn settings move]) := by
    intro pair hpair
    rw [givens_snoc]
    exact List.mem_append_left _ hpair
  have hknown : ∀ hash applied, flow.desk.processed.get? hash = some applied →
      (∃ report ∈ past ++ [flow.turn settings move], report.move = .report hash true) ∨
        ∃ id, (id, hash) ∈ givens (past ++ [flow.turn settings move]) := by
    intro hash applied hprocessed
    rcases h.processed hash applied hprocessed with ⟨report, hreport, hmove⟩ | ⟨id, hgiven⟩
    · exact Or.inl ⟨report, List.mem_append_left _ hreport, hmove⟩
    · exact Or.inr ⟨id, hgrows _ hgiven⟩
  refine ⟨hstep.owned h.owned, ?_, ?_, ?_⟩
  · apply hstep.traced h.owned (h.traced.mono hgrows)
    intro pair hpair
    exact mem_givens (List.mem_append_right _ (List.mem_singleton.2 rfl)) hpair
  · intro hash applied hprocessed
    rcases hstep.processed_or_settles with hsame | ⟨other, outcome, settled, hsettles, hsource⟩
    · rw [hsame] at hprocessed
      exact hknown hash applied hprocessed
    · rcases hsettles.processed_new hprocessed with hold | ⟨rfl, rfl⟩
      · exact hknown hash applied hold
      · rcases hsource with ⟨confirmed, hconfirmed, rfl⟩ | ⟨call, hcall, hstage⟩
        · cases hconfirmed
          exact Or.inl ⟨_, List.mem_append_right _ (List.mem_singleton.2 rfl), rfl⟩
        · exact Or.inr ⟨call.id, hgrows _ (h.traced.sent call hcall hash hstage)⟩
  · intro hnodup flight hflight hprocessed
    rw [givens_snoc, List.map_append] at hnodup
    rw [hstep.processed_inFlight hflight] at hprocessed
    rcases hstep.flight hflight with hold | ⟨id, call, hcall, hstage, -, rfl, -⟩
    · exact (h.flight (List.nodup_append.1 hnodup).1 flight hold hprocessed).snoc _
    · have hgiven : (flow.turn settings (.submitted id (.ok flight.hash))).given? =
          some (id, flight.hash) := given?_of_submitted hcall (Or.inr hstage)
      obtain ⟨applied, happlied⟩ := Option.ne_none_iff_exists'.1 hprocessed
      -- A hash that was given before would be given twice, so it was reported.
      rcases h.processed _ applied happlied with ⟨report, hreport, hmove⟩ | ⟨other, hother⟩
      · exact ⟨past, _, [], id, rfl, hgiven, report, hreport, hmove⟩
      · rw [hgiven] at hnodup
        have htwice := (List.nodup_append.1 hnodup).2.2 _ (List.mem_map_of_mem hother) flight.hash
        simp at htwice

theorem explained_history (settings : Settings) (moves : List Move) :
    Explained (({} : Flow).history settings moves) (({} : Flow).reached settings moves) := by
  refine history_induction (fun past flow move h => h.snoc move) ?_ moves
  exact
    { owned := owned_start
      traced := traced_start _
      processed := fun _ _ hprocessed => nomatch hprocessed
      flight := fun _ _ hflight => nomatch hflight }

end Explaining

/-! ## A submission that was overtaken -/

/-- What is in flight is in the table already, so that no outcome settles it. -/
structure Stuck (flow : Flow) (flight : InFlight) : Prop where
  inFlight : flow.desk.inFlight = some flight
  processed : flow.desk.processed.get? flight.hash ≠ none

section Sticking

variable {settings : Settings} {flow after : Flow} {move : Move} {effects : List Effect}
  {flight : InFlight}

/-- Only an edit that starts over leads out. -/
theorem Step.stuck (step : Step settings flow move after effects) (howned : flow.Owned)
    (h : Stuck flow flight) (hstays : ¬Turn.StartsOver ⟨flow, move, after, effects⟩) :
    Stuck after flight := by
  have hinFlight : after.desk.inFlight = some flight := by
    rcases step.inFlight_cases with hsame | ⟨hstarts, -⟩ | ⟨hash, outcome, settled, hsettles⟩ |
      ⟨id, call, hash, hcall, hstage, hepoch, -⟩
    · exact hsame.trans h.inFlight
    · exact absurd hstarts hstays
    · exact hsettles.inFlight_of_processed h.inFlight h.processed
    · have hshows := howned.shows_of_find? hcall hepoch hstage
      cases hshows.2.symm.trans h.inFlight
  refine ⟨hinFlight, ?_⟩
  rw [step.processed_inFlight hinFlight]
  exact h.processed

theorem Stuck.reached (h : Stuck flow flight) (howned : flow.Owned) (later : List Move)
    (hstays : ∀ turn ∈ flow.history settings later, ¬turn.StartsOver) :
    Stuck (flow.reached settings later) flight := by
  refine howned.reached_induction (P := fun flow => Stuck flow flight) h ?_
  intro turn hturn howned hbefore
  exact (step_of_mem_history hturn).2.stuck howned hbefore (hstays turn hturn)

theorem Numbered.find?_of_mem (h : flow.Numbered) {call : OpenCall} (hcall : call ∈ flow.calls) :
    flow.find? call.id = some call := by
  cases hfound : flow.find? call.id with
  | none =>
    have hnone := List.find?_eq_none.1 hfound call hcall
    exact absurd (decide_eq_true rfl) hnone
  | some found =>
    rw [h.eq_of_id (mem_of_find? hfound) hcall (id_of_find? hfound)]

/-- A current call of a submission that is stuck ends without a trace. -/
theorem Stuck.exists_end (settings : Settings) (h : Stuck flow flight) (howned : flow.Owned)
    {call : OpenCall} (hcall : call ∈ flow.calls)
    (hcurrent : call.attempt.epoch = flow.desk.epoch) :
    ∃ move : Move, move.GoesWell ∧ (flow.step settings move).1 = flow.drop call.id := by
  have hfound := howned.numbered.find?_of_mem hcall
  have hpending := howned.flight_pending flight h.inFlight
  have hshows := howned.shows call hcall hcurrent
  cases hstage : call.stage with
  | approving | approvalSent =>
    rw [hstage] at hshows
    cases hpending.symm.trans hshows
  | approved =>
    refine ⟨.proceed call.id, trivial, ?_⟩
    have hclaim : flow.desk.claim call.attempt = none := by simp [Desk.claim, hpending]
    simp only [Flow.step, proceed, hfound, hstage, hclaim]
    rfl
  | executing =>
    rw [hstage] at hshows
    cases hshows.2.symm.trans h.inFlight
  | sent hash =>
    rw [hstage] at hshows
    obtain rfl := hshows.2.2 flight h.inFlight
    obtain ⟨applied, happlied⟩ := Option.ne_none_iff_exists'.1 h.processed
    obtain ⟨hdesk, -⟩ :=
      (Desk.settles flow.desk flight.hash (.ok true)).eq_of_processed happlied
    refine ⟨.mined call.id (.ok true), trivial, ?_⟩
    simp only [Flow.step, mined, hfound, hstage, hdesk]
    rfl

/-- The current calls of a submission that is stuck may all end, and the desk is
left as it is. -/
theorem Stuck.exists_unattended (settings : Settings) (h : Stuck flow flight)
    (howned : flow.Owned) :
    ∃ later : List Move, (∀ move ∈ later, move.GoesWell) ∧
      (flow.reached settings later).desk = flow.desk ∧
      ¬(flow.reached settings later).Attended := by
  induction hcount : flow.calls.length using Nat.strongRecOn generalizing flow with
  | ind count ih =>
    by_cases hattended : flow.Attended
    · obtain ⟨call, hcall, hcurrent⟩ := hattended
      obtain ⟨move, hmove, hafter⟩ := h.exists_end settings howned hcall hcurrent
      have hfewer : (flow.drop call.id).calls.length < count := by
        rw [← hcount]
        exact List.length_filter_lt_length_iff_exists.2 ⟨call, hcall, by simp⟩
      have hdropped : Stuck (flow.drop call.id) flight := ⟨h.inFlight, h.processed⟩
      obtain ⟨later, hlater, hdesk, hunattended⟩ :=
        ih _ hfewer hdropped (howned.drop call.id) rfl
      refine ⟨move :: later, ?_, ?_, ?_⟩
      · exact List.forall_mem_cons.2 ⟨hmove, hlater⟩
      · rw [reached_cons, hafter]
        exact hdesk
      · rw [reached_cons, hafter]
        exact hunattended
    · refine ⟨[], ?_, rfl, hattended⟩
      exact fun _ hmem => nomatch hmem

/-- What was reported confirmed is in the table. -/
theorem processed_of_reported {moves : List Move} {report : Turn} {hash : TxHash}
    (hreport : report ∈ ({} : Flow).history settings moves)
    (hmove : report.move = .report hash true) :
    (({} : Flow).reached settings moves).desk.processed.get? hash ≠ none := by
  obtain ⟨early, move, late, rfl, rfl⟩ := exists_of_mem_history hreport
  obtain rfl : move = .report hash true := hmove
  have hstep := steps settings (({} : Flow).reached settings early) (.report hash true)
  have hsettles := Desk.settles (({} : Flow).reached settings early).desk hash (.ok true)
  obtain ⟨applied, happlied⟩ := Option.ne_none_iff_exists'.1 hsettles.processed_of_confirmed
  rw [reached_append, reached_cons]
  rw [processed_grows settings (hstep.owned (owned_reached settings early)) late happlied]
  exact Option.some_ne_none applied

/-- In a fresh run, to be stuck is to have been overtaken. -/
theorem stuck_iff_overtaken {moves : List Move} (hfresh : Fresh settings moves) :
    Stuck (({} : Flow).reached settings moves) flight ↔
      (({} : Flow).reached settings moves).desk.inFlight = some flight ∧
        Overtaken (({} : Flow).history settings moves) flight.hash := by
  constructor
  · intro h
    have hexplained := explained_history settings moves
    exact ⟨h.inFlight, hexplained.flight hfresh flight h.inFlight h.processed⟩
  · rintro ⟨hflight, early, turn, late, id, hhistory, -, report, hreport, hmove⟩
    refine ⟨hflight, processed_of_reported ?_ hmove⟩
    rw [hhistory]
    exact List.mem_append_left _ hreport

end Sticking

/-- In a fresh run in which no call is abandoned, a submission in progress has a
call under way unless its execution was overtaken.  If it was not, the desk is
free again as soon as no such call is left.  If it was, the submission stays in
progress and the desk refuses every other until an edit starts over, and the
calls that are left may all end before. -/
theorem attended_unless_overtaken (settings : Settings) (moves : List Move)
    (hfresh : Fresh settings moves) (hstays : ∀ id, .abandon id ∉ moves) :
    let last := ({} : Flow).reached settings moves
    let overtaken := ∃ flight, last.desk.inFlight = some flight ∧
      Overtaken (({} : Flow).history settings moves) flight.hash
    (¬last.Attended → (last.desk.status.isInProgress = true ↔ overtaken)) ∧
    (¬last.Attended → ¬overtaken →
      (last.desk.status = .idle ∨ last.desk.status = .success ∨ last.desk.status = .error) ∧
      last.desk.inFlight = none ∧
      ∀ cache account, (last.desk.submit settings cache account).2 ≠ .error .busy) ∧
    (overtaken →
      (∀ later, (∀ turn ∈ last.history settings later, ¬turn.StartsOver) →
        let after := last.reached settings later
        after.desk.status = .pending ∧ after.desk.inFlight = last.desk.inFlight ∧
        ∀ cache account, (after.desk.submit settings cache (some account)).2 = .error .busy) ∧
      ∃ later : List Move, (∀ move ∈ later, move.GoesWell) ∧
        (last.reached settings later).desk = last.desk ∧
        ¬(last.reached settings later).Attended) := by
  intro last overtaken
  have howned : last.Owned := owned_reached settings moves
  have hcarried : last.Carried := carried_start.reached owned_start moves hstays
  have hovertaken : overtaken ↔ ∃ flight, Stuck last flight := by
    constructor
    · rintro ⟨flight, hflight⟩
      exact ⟨flight, (stuck_iff_overtaken hfresh).2 hflight⟩
    · rintro ⟨flight, hstuck⟩
      exact ⟨flight, (stuck_iff_overtaken hfresh).1 hstuck⟩
  have hiff : ¬last.Attended → (last.desk.status.isInProgress = true ↔ overtaken) := by
    intro hunattended
    rw [hovertaken]
    constructor
    · intro hprogress
      obtain ⟨flight, hflight, hprocessed⟩ := hcarried.exists_processed hprogress hunattended
      exact ⟨flight, hflight, hprocessed⟩
    · rintro ⟨flight, hstuck⟩
      rw [howned.flight_pending flight hstuck.inFlight]
      rfl
  refine ⟨hiff, ?_, ?_⟩
  · intro hunattended hnot
    have hended : last.desk.status.isInProgress = false :=
      Bool.eq_false_iff.2 fun hprogress => hnot ((hiff hunattended).1 hprogress)
    refine ⟨Status.idle_or_final hended, howned.free_of_idle hended, ?_⟩
    intro cache account
    cases account with
    | none => exact fun heq => nomatch heq
    | some account =>
      rw [ne_eq, Desk.submit_busy_iff, hended]
      exact Bool.false_ne_true
  · intro h
    obtain ⟨flight, hstuck⟩ := hovertaken.1 h
    refine ⟨?_, hstuck.exists_unattended settings howned⟩
    intro later hlater after
    have hafter : Stuck after flight := hstuck.reached howned later hlater
    have hpending : after.desk.status = .pending :=
      (howned.reached settings later).flight_pending flight hafter.inFlight
    refine ⟨hpending, hafter.inFlight.trans hstuck.inFlight.symm, ?_⟩
    intro cache account
    rw [Desk.submit_busy_iff, hpending]
    rfl

/-- The execution is reported confirmed, then the executor's answer is recorded,
then the receipt arrives. -/
def overtakenRun : List Move :=
  [.edit none { token := some "ETH", amount := some "1" }, .submit {} (some default),
    .report trialHash true, .submitted 0 (.ok trialHash), .mined 0 (.ok true)]

theorem attended_unless_overtaken_of_overtakenRun :
    Fresh trialSettings overtakenRun ∧ (∀ id, .abandon id ∉ overtakenRun) ∧
      ∃ flight, (({} : Flow).reached trialSettings overtakenRun).desk.inFlight = some flight ∧
        Overtaken (({} : Flow).history trialSettings overtakenRun) flight.hash := by
  have hfresh : Fresh trialSettings overtakenRun := by
    show List.Nodup _
    decide +kernel
  have hstays : ∀ id, .abandon id ∉ overtakenRun := by simp [overtakenRun]
  have hcalls : (({} : Flow).reached trialSettings overtakenRun).calls = [] := by decide +kernel
  have hprogress :
      (({} : Flow).reached trialSettings overtakenRun).desk.status.isInProgress = true := by
    decide +kernel
  refine ⟨hfresh, hstays, ?_⟩
  obtain ⟨hiff, -⟩ := attended_unless_overtaken trialSettings overtakenRun hfresh hstays
  apply (hiff _).1 hprogress
  rintro ⟨call, hcall, -⟩
  rw [hcalls] at hcall
  cases hcall

/-- Nobody is left to carry the submission on, and the desk is not free. -/
theorem busy_after_overtakenRun :
    let last := ({} : Flow).reached trialSettings overtakenRun
    Fresh trialSettings overtakenRun ∧ (∀ id, .abandon id ∉ overtakenRun) ∧
      last.calls = [] ∧ last.desk.status = .pending ∧ last.desk.inFlight ≠ none ∧
      (last.desk.submit trialSettings {} (some default)).2 = .error .busy := by
  intro last
  have hfresh : Fresh trialSettings overtakenRun := by
    show List.Nodup _
    decide +kernel
  have hpending : last.desk.status = .pending := by decide +kernel
  refine ⟨hfresh, by simp [overtakenRun], by decide +kernel, hpending, by decide +kernel, ?_⟩
  rw [Desk.submit_busy_iff, hpending]
  rfl

end Flow

end DonationFlow
