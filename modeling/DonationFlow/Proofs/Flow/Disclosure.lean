import DonationFlow.Proofs.Flow.Acceptance
import DonationFlow.Proofs.Flow.OnceOnly

/-!
# What a superseded call leaves unsaid

A call whose execution was accepted is answered `superseded` if its outcome comes
to nothing.  For a success that is the truth: whoever settled it, the call is told
so.  A failure that is reported from elsewhere leaves no entry in the table of
processed hashes, so that the call is answered as if nothing had been said of its
execution.  `Desk.Drops` carries both directions along a fresh run.  Main
statement: `superseded_truthful_unless_reported`.
-/

namespace DonationFlow

namespace Desk

/-- An outcome of the hash would be applied: it is in flight and not processed. -/
structure Awaits (desk : Desk) (hash : TxHash) : Prop where
  unprocessed : desk.processed.get? hash = none
  flying : ∃ flight, desk.inFlight = some flight ∧ flight.hash = hash

/-- An outcome of the hash would come to nothing, and it never came to a success. -/
structure Drops (desk : Desk) (hash : TxHash) : Prop where
  unawaited : ¬desk.Awaits hash
  unapplied : desk.processed.get? hash ≠ some true

variable {desk after : Desk} {hash : TxHash} {outcome : Except FlowError Bool}
  {settled : Settled}

theorem Drops.settled_eq (h : desk.Drops hash)
    (hsettles : Settles desk hash outcome after settled) : settled = .ignored := by
  cases hsettles with
  | @known applied _ hprocessed =>
    cases applied with
    | true => exact absurd hprocessed h.unapplied
    | false => rfl
  | succeeded hnone hflight hhash | failed hnone hflight hhash =>
    exact absurd ⟨hnone, _, hflight, hhash⟩ h.unawaited
  | strayed | lost => rfl

/-- Only a hash that the desk drops is ignored, and it drops it after. -/
theorem Settles.drops (h : Settles desk hash outcome after .ignored) :
    desk.Drops hash ∧ after.Drops hash := by
  generalize hresult : Settled.ignored = result at h
  cases h with
  | @known applied _ hprocessed =>
    cases applied with
    | true => cases hresult
    | false =>
      have hdrops : desk.Drops hash :=
        ⟨fun hawaits => (nomatch hawaits.unprocessed.symm.trans hprocessed), by simp [hprocessed]⟩
      exact ⟨hdrops, hdrops⟩
  | succeeded | failed => cases hresult
  | strayed hnone hother =>
    refine ⟨⟨?_, by simp [hnone]⟩, ⟨?_, by simp⟩⟩
    · rintro ⟨-, flight, hflight, hhash⟩
      exact hother flight hflight hhash
    · rintro ⟨hprocessed, -⟩
      simp at hprocessed
  | lost hnone hother =>
    have hdrops : desk.Drops hash := by
      refine ⟨?_, by simp [hnone]⟩
      rintro ⟨-, flight, hflight, hhash⟩
      exact hother flight hflight hhash
    exact ⟨hdrops, hdrops⟩

/-- An awaited outcome is applied, as a success that is remembered or as a
failure. -/
theorem Settles.cases_of_awaits (h : Settles desk hash outcome after settled)
    (hawaits : desk.Awaits hash) :
    outcome = .ok true ∧ after.processed.get? hash = some true ∨
      outcome ≠ .ok true ∧ ∃ flight, desk.inFlight = some flight ∧
        after = desk.applyFailure flight hash (failureOf hash outcome) := by
  cases h with
  | known _ hprocessed => cases hawaits.unprocessed.symm.trans hprocessed
  | succeeded =>
    rw [applySuccess_eq]
    exact Or.inl ⟨rfl, by simp⟩
  | failed _ hflight _ hfailed => exact Or.inr ⟨hfailed, _, hflight, rfl⟩
  | strayed _ hother | lost _ hother =>
    obtain ⟨flight, hflight, hhash⟩ := hawaits.flying
    exact absurd hhash (hother flight hflight)

/-- A failure is applied and not remembered. -/
theorem Awaits.drops_applyFailure (h : desk.Awaits hash) (flight : InFlight) (error : FlowError) :
    (desk.applyFailure flight hash error).Drops hash := by
  rw [applyFailure_eq]
  constructor
  · rintro ⟨-, flight, hflight, -⟩
    cases hflight
  · simp [h.unprocessed]

theorem Settles.awaits_of_news (h : Settles desk hash outcome after settled)
    (hnews : after.status ≠ desk.status ∨ after.bridge ≠ desk.bridge ∨ after.log ≠ desk.log) :
    desk.Awaits hash := by
  cases h with
  | known | lost | strayed => simp at hnews
  | succeeded hnone hflight hhash | failed hnone hflight hhash =>
    exact ⟨hnone, _, hflight, hhash⟩

end Desk

namespace Turn

/-- An outcome of the hash is delivered in the turn, and it shows: in the status,
in the bridge status or in a notice. -/
structure Discloses (turn : Turn) (hash : TxHash) : Prop where
  delivered : turn.delivered? = some hash
  shows : turn.after.desk.status ≠ turn.before.desk.status ∨
    turn.after.desk.bridge ≠ turn.before.desk.bridge ∨ turn.notices ≠ []

/-- The execution in flight is reported from elsewhere to have failed, and the
submission ends with that. -/
structure ReportsFailure (turn : Turn) (hash : TxHash) : Prop where
  move : turn.move = .report hash false
  awaited : turn.before.desk.Awaits hash
  status : turn.before.desk.status = .pending ∧ turn.after.desk.status = .error
  told : turn.notices =
    [.failed (Notice.failure (.notMined hash.text)) (some hash)]

end Turn

namespace Flow

section Turns

variable {settings : Settings} {flow after : Flow} {move : Move} {effects : List Effect}
  {hash : TxHash}

/-- A delivery settles its hash, as a report or as the receipt of a call that
waited for it. -/
theorem settles_of_delivered (h : (flow.turn settings move).delivered? = some hash) :
    ∃ outcome settled,
      Desk.Settles flow.desk hash outcome (flow.step settings move).1.desk settled ∧
      ((∃ confirmed, move = .report hash confirmed ∧ outcome = .ok confirmed) ∨
        ∃ call, flow.find? call.id = some call ∧ call.stage = .sent hash ∧
          move = .mined call.id outcome ∧ (flow.step settings move).1.calls =
            (flow.drop call.id).calls) := by
  cases move with
  | report other confirmed =>
    obtain rfl : other = hash := Option.some.inj h
    exact ⟨_, _, Desk.settles flow.desk other (.ok confirmed), Or.inl ⟨confirmed, rfl, rfl⟩⟩
  | mined id outcome =>
    simp only [Turn.delivered?, turn] at h
    split at h
    · rename_i owner attempt sent hcall
      obtain rfl := Option.some.inj h
      obtain rfl : owner = id := id_of_find? hcall
      refine ⟨outcome, (flow.desk.settle sent outcome).2, ?_,
        Or.inr ⟨⟨owner, attempt, .sent sent⟩, hcall, rfl, rfl, ?_⟩⟩
      · simp only [step, mined, hcall]
        exact Desk.settles flow.desk sent outcome
      · simp only [step, mined, hcall]
        rfl
    · cases h
  | edit | submit | tick | submitted | proceed | abandon => cases h

/-- A call that waits for its receipt is superseded only by what it waits for. -/
theorem Step.settles_of_superseded (step : Step settings flow move after effects) {id : Nat}
    {call : OpenCall} (hcall : flow.find? id = some call) (hstage : call.stage = .sent hash)
    (hanswer : .answer id .superseded ∈ effects) :
    ∃ outcome, Desk.Settles flow.desk hash outcome after.desk .ignored := by
  cases step with
  | declined | retyped | missed | abandoned => cases hanswer
  | restarted => exact absurd hanswer (answer_not_mem_editRereads _ _ _ _ _)
  | reported => exact absurd hanswer (answer_not_mem_refreshes _ _ _)
  | approved => exact absurd hanswer (answer_not_mem_approvalRereads _ _ _ _ _)
  | refused | unplannable | asked | executed | resumed | approvalAccepted | executionAccepted
  | failed | claimed =>
    simp [handOutExecution] at hanswer
  | passed hresume =>
    rcases hresume with ⟨-, rfl⟩ | ⟨_, -, rfl⟩ <;> simp at hanswer
  | superseded _ hfound _ hunsent =>
    obtain rfl : id = _ := by simpa using hanswer
    obtain rfl := Option.some.inj (hcall.symm.trans hfound)
    exact absurd hstage (hunsent hash)
  | @settled _ _ sent outcome _ result hfound hsent hsettles =>
    obtain ⟨rfl, hresult⟩ := eq_answerOf_of_mem hanswer
    obtain rfl := Option.some.inj (hcall.symm.trans hfound)
    obtain rfl := Stage.sent.inj (hstage.symm.trans hsent)
    have hignored : result = .ignored := by
      cases result <;> first | rfl | cases hresult
    rw [hignored] at hsettles
    exact ⟨outcome, hsettles⟩

/-- Only what is awaited shows. -/
theorem awaits_of_discloses (h : (flow.turn settings move).Discloses hash) :
    flow.desk.Awaits hash := by
  obtain ⟨outcome, settled, hsettles, -⟩ := settles_of_delivered h.delivered
  apply hsettles.awaits_of_news
  rcases h.shows with hstatus | hbridge | hnotices
  · exact Or.inl hstatus
  · exact Or.inr (Or.inl hbridge)
  · refine Or.inr (Or.inr fun hlog => hnotices ?_)
    have hevents : (flow.turn settings move).events = [] := by
      rw [Turn.events, turn, hlog, List.drop_length]
    rw [Turn.notices, hevents]
    rfl

theorem reportsFailure_of_awaits (howned : flow.Owned) (h : flow.desk.Awaits hash) :
    (flow.turn settings (.report hash false)).ReportsFailure hash := by
  rcases (Desk.settles flow.desk hash (.ok false)).cases_of_awaits h with
    ⟨hconfirmed, -⟩ | ⟨-, flight, hflight, hafter⟩
  · cases hconfirmed
  · have hafter : (flow.turn settings (.report hash false)).after.desk =
        flow.desk.applyFailure flight hash (.notMined hash.text) := hafter
    refine ⟨rfl, h, ⟨howned.flight_pending flight hflight, ?_⟩, ?_⟩
    · rw [hafter, Desk.applyFailure_eq]
    · apply Turn.notices_eq_of_tells
      rw [hafter]
      exact flow.desk.tells_applyFailure flight hash _

theorem drops_of_reportsFailure (h : (flow.turn settings move).ReportsFailure hash) :
    (flow.step settings move).1.desk.Drops hash := by
  obtain rfl : move = .report hash false := h.move
  rcases (Desk.settles flow.desk hash (.ok false)).cases_of_awaits h.awaited with
    ⟨hconfirmed, -⟩ | ⟨-, flight, -, hafter⟩
  · cases hconfirmed
  · show (flow.desk.settle hash (.ok false)).1.Drops hash
    rw [hafter]
    exact h.awaited.drops_applyFailure flight _

/-- The receipt of what the desk drops supersedes the call that waited for it. -/
theorem effects_of_drops {id : Nat} {call : OpenCall} (hcall : flow.find? id = some call)
    (hstage : call.stage = .sent hash) (h : flow.desk.Drops hash)
    (outcome : Except FlowError Bool) :
    (flow.step settings (.mined id outcome)).2 = [.answer id .superseded] := by
  have hsettled := h.settled_eq (Desk.settles flow.desk hash outcome)
  simp only [step, mined, hcall, hstage, hsettled]
  rfl

/-- What a desk drops it drops as long as the executor does not give the hash
again. -/
theorem drops_step (howned : flow.Owned) (h : flow.desk.Drops hash)
    (hgiven : ∀ id, (flow.turn settings move).given? ≠ some (id, hash)) :
    (flow.step settings move).1.desk.Drops hash := by
  have hstep := steps settings flow move
  have hends := hstep.ends howned
  constructor
  · rintro ⟨hnone, flight, hflight, rfl⟩
    have hbefore : flow.desk.processed.get? flight.hash = none := by
      cases hprocessed : flow.desk.processed.get? flight.hash with
      | none => rfl
      | some applied => cases hnone.symm.trans (processed_grows_turn hends hprocessed)
    rcases hstep.flight hflight with hsame | ⟨id, call, hcall, hstage, -, rfl, -⟩
    · exact h.unawaited ⟨hbefore, flight, hsame, rfl⟩
    · exact hgiven id (given?_of_submitted hcall (Or.inr hstage))
  · intro happlied
    have happlies := (applies_iff_put hends hash).2 ⟨h.unapplied, happlied⟩
    obtain ⟨outcome, settled, hsettles, -⟩ := settles_of_delivered happlies.delivered
    rw [h.settled_eq hsettles] at hsettles
    exact hsettles.drops.2.unapplied happlied

end Turns

/-! ## Runs -/

section Runs

variable {settings : Settings} {hash : TxHash}

/-- A call that is no longer under way never comes back. -/
theorem gone_reached (settings : Settings) {flow : Flow} (howned : flow.Owned) {id : Nat}
    (hbelow : id < flow.next) (hgone : ∀ call ∈ flow.calls, call.id ≠ id) (moves : List Move) :
    ∀ call ∈ (flow.reached settings moves).calls, call.id ≠ id := by
  suffices h : id < (flow.reached settings moves).next ∧
      ∀ call ∈ (flow.reached settings moves).calls, call.id ≠ id from h.2
  refine howned.reached_induction (P := fun flow => id < flow.next ∧
    ∀ call ∈ flow.calls, call.id ≠ id) ⟨hbelow, hgone⟩ ?_
  rintro turn hturn hbefore ⟨hbelow, hgone⟩
  obtain ⟨-, hstep⟩ := step_of_mem_history hturn
  refine ⟨Nat.lt_of_lt_of_le hbelow hstep.next_le, fun call hcall => ?_⟩
  rcases hstep.origin hbefore.numbered hcall with ⟨old, hold, hid, -⟩ | ⟨hnew, -⟩
  · rw [← hid]
    exact hgone old hold
  · omega

theorem givens_append {early late : List Move} {pair : Nat × TxHash}
    (h : pair ∈ givens (({} : Flow).history settings early)) :
    pair ∈ givens (({} : Flow).history settings (early ++ late)) := by
  rw [history_append, givens, List.filterMap_append]
  exact List.mem_append_left _ h

/-- In a fresh run a hash that was given is never given again. -/
theorem Fresh.given?_ne {early late : List Move} {move : Move}
    (h : Fresh settings (early ++ move :: late)) {owner : Nat}
    (hgiven : (owner, hash) ∈ givens (({} : Flow).history settings early)) (id : Nat) :
    ((({} : Flow).reached settings early).turn settings move).given? ≠ some (id, hash) := by
  intro hagain
  rw [Fresh, history_append, history, givens, List.filterMap_append,
    List.filterMap_cons_some hagain, List.map_append, List.map_cons, List.nodup_append] at h
  exact h.2.2 hash (List.mem_map_of_mem hgiven) hash List.mem_cons_self rfl

/-- In a fresh run what was given and is dropped is dropped for ever. -/
theorem Fresh.drops_reached {early late : List Move} (h : Fresh settings (early ++ late))
    {owner : Nat} (hgiven : (owner, hash) ∈ givens (({} : Flow).history settings early))
    (hdrops : (({} : Flow).reached settings early).desk.Drops hash) :
    (({} : Flow).reached settings (early ++ late)).desk.Drops hash := by
  induction late generalizing early with
  | nil =>
    rw [List.append_nil]
    exact hdrops
  | cons move late ih =>
    have hstep := drops_step (owned_reached settings early) hdrops (h.given?_ne hgiven)
    rw [List.append_cons] at h ⊢
    apply ih h (givens_append hgiven)
    rw [reached_append]
    exact hstep

theorem Fresh.of_append {early late : List Move} (h : Fresh settings (early ++ late)) :
    Fresh settings early := by
  rw [Fresh, history_append, givens, List.filterMap_append, List.map_append] at h
  exact (List.nodup_append.1 h).1

/-- What a move leaves dropped is dropped to the end. -/
theorem Fresh.drops_after {early late : List Move} {move : Move}
    (h : Fresh settings (early ++ move :: late)) {owner : Nat}
    (hgiven : (owner, hash) ∈ givens (({} : Flow).history settings early))
    (hdrops : ((({} : Flow).reached settings early).step settings move).1.desk.Drops hash) :
    (({} : Flow).reached settings (early ++ move :: late)).desk.Drops hash := by
  rw [List.append_cons] at h ⊢
  apply h.drops_reached (givens_append hgiven)
  rw [reached_append]
  exact hdrops

/-- What is in flight was given to a call before. -/
theorem exists_given_of_awaits {moves : List Move}
    (h : (({} : Flow).reached settings moves).desk.Awaits hash) :
    ∃ owner, (owner, hash) ∈ givens (({} : Flow).history settings moves) := by
  obtain ⟨flight, hflight, rfl⟩ := h.flying
  have htraced := traced_history settings moves []
  rw [List.append_nil] at htraced
  obtain ⟨owner, hgiven, -⟩ := htraced.flight flight hflight
  exact ⟨owner, hgiven⟩

/-- What a call waits for was given to it before. -/
theorem given_of_sent {moves : List Move} {id : Nat} {call : OpenCall}
    (hcall : (({} : Flow).reached settings moves).find? id = some call)
    (hstage : call.stage = .sent hash) :
    (id, hash) ∈ givens (({} : Flow).history settings moves) := by
  have htraced := traced_history settings moves []
  rw [List.append_nil] at htraced
  rw [← id_of_find? hcall]
  exact htraced.sent call (mem_of_find? hcall) hash hstage

/-- What shows of a hash before its call is superseded is a failure that was
reported from elsewhere: a success would be in the table, and a receipt would
have ended the call. -/
theorem Fresh.reportsFailure_of_discloses {moves later : List Move}
    (h : Fresh settings (moves ++ later)) {id : Nat} {call : OpenCall}
    (hcall : (({} : Flow).reached settings moves).find? id = some call)
    (hstage : call.stage = .sent hash)
    (hdrops : (({} : Flow).reached settings moves).desk.Drops hash) {other : Turn}
    (hother : other ∈ ({} : Flow).history settings moves) (hshows : other.Discloses hash) :
    other.ReportsFailure hash := by
  obtain ⟨early, move, late, rfl, rfl⟩ := exists_of_mem_history hother
  have howned := owned_reached settings early
  have hstep := steps settings (({} : Flow).reached settings early) move
  have hawaits := awaits_of_discloses hshows
  obtain ⟨outcome, settled, hsettles, hdelivery⟩ := settles_of_delivered hshows.delivered
  have hreached : ({} : Flow).reached settings (early ++ move :: late) =
      (({} : Flow).reached settings early).reached settings (move :: late) := reached_append _ _
  rcases hsettles.cases_of_awaits hawaits with ⟨-, happlied⟩ | ⟨hfailed, -⟩
  · have hlast := processed_grows settings (hstep.owned howned) late happlied
    rw [hreached] at hdrops
    exact absurd hlast hdrops.unapplied
  · rcases hdelivery with ⟨confirmed, rfl, rfl⟩ | ⟨waiting, hfound, hwaits, rfl, hcalls⟩
    · obtain rfl : confirmed = false := by simpa using hfailed
      exact reportsFailure_of_awaits howned hawaits
    · obtain rfl : waiting.id = id :=
        h.eq_of_given (givens_append (givens_append (given_of_sent hfound hwaits)))
          (givens_append (given_of_sent hcall hstage))
      have hbelow := Nat.lt_of_lt_of_le (howned.numbered.below waiting (mem_of_find? hfound))
        hstep.next_le
      have hgone := gone_reached settings (hstep.owned howned) hbelow
        (fun call hcall => by
          rw [hcalls] at hcall
          exact (mem_drop_iff.1 hcall).2) late
      rw [hreached] at hcall
      exact absurd (id_of_find? hcall) (hgone call (mem_of_find? hcall))

end Runs

/-- In a fresh run, if a call whose execution was accepted is superseded, then no
outcome of that execution ever showed, unless it was reported from elsewhere to
have failed before the call's own receipt came; and if it was so reported, the
call is superseded whatever its receipt says. -/
theorem superseded_truthful_unless_reported (settings : Settings) (moves : List Move)
    (hfresh : Fresh settings moves) (early : List Turn) (turn : Turn) (late : List Turn)
    (hcut : ({} : Flow).history settings moves = early ++ turn :: late)
    (id : Nat) (call : OpenCall) (hash : TxHash) (hcall : turn.before.find? id = some call)
    (hstage : call.stage = .sent hash) :
    (.answer id .superseded ∈ turn.effects →
      ∀ other ∈ ({} : Flow).history settings moves, other.Discloses hash →
        other ∈ early ∧ other.ReportsFailure hash) ∧
    ((∃ other ∈ early, other.ReportsFailure hash) →
      ∀ outcome, turn.move = .mined id outcome →
        turn.effects = [.answer id .superseded]) := by
  obtain ⟨before, move, later, rfl, rfl, rfl, rfl⟩ := exists_of_history_eq hcut
  have hgiven := given_of_sent hcall hstage
  constructor
  · intro hanswer other hother hshows
    obtain ⟨outcome, hsettles⟩ :=
      (steps settings _ move).settles_of_superseded hcall hstage hanswer
    obtain ⟨hdrops, hdropsAfter⟩ := hsettles.drops
    rw [hcut, List.mem_append, List.mem_cons] at hother
    rcases hother with hother | rfl | hother
    · exact ⟨hother, hfresh.reportsFailure_of_discloses hcall hstage hdrops hother hshows⟩
    · exact absurd (awaits_of_discloses hshows) hdrops.unawaited
    · obtain ⟨middle, last, rest, rfl, rfl⟩ := exists_of_mem_history hother
      rw [← List.cons_append, ← List.append_assoc] at hfresh
      have hlater := hfresh.of_append.drops_after hgiven hdropsAfter
      rw [reached_append] at hlater
      exact absurd (awaits_of_discloses hshows) hlater.unawaited
  · rintro ⟨other, hother, hreports⟩ outcome hmove
    obtain ⟨first, report, rest, rfl, rfl⟩ := exists_of_mem_history hother
    obtain ⟨owner, howner⟩ := exists_given_of_awaits hreports.awaited
    obtain rfl : move = .mined id outcome := hmove
    exact effects_of_drops hcall hstage
      (hfresh.of_append.drops_after howner (drops_of_reportsFailure hreports)) outcome

/-- The execution is reported to have failed just before the receipt says so. -/
def failedRun : List Move := acceptedRun ++ [.report trialHash false, .mined 0 (.ok false)]

theorem superseded_truthful_unless_reported_of_failedRun :
    let report := (({} : Flow).reached trialSettings acceptedRun).turn trialSettings
      (.report trialHash false)
    let receipt := report.after.turn trialSettings (.mined 0 (.ok false))
    Fresh trialSettings failedRun ∧
      ({} : Flow).history trialSettings failedRun =
        (({} : Flow).history trialSettings acceptedRun ++ [report]) ++ [receipt] ∧
      report.Discloses trialHash ∧ report.ReportsFailure trialHash ∧
      receipt.effects = [.answer 0 .superseded] := by
  intro report receipt
  have hfresh : Fresh trialSettings failedRun := by
    show List.Nodup _
    decide +kernel
  have hcut : ({} : Flow).history trialSettings failedRun =
      (({} : Flow).history trialSettings acceptedRun ++ [report]) ++ [receipt] := rfl
  have hstage : (receipt.before.find? 0).map (·.stage) = some (.sent trialHash) := by
    decide +kernel
  obtain ⟨call, hcall, hstage⟩ := Option.map_eq_some_iff.1 hstage
  have hdiscloses : report.Discloses trialHash := ⟨rfl, Or.inl (by decide +kernel)⟩
  have hanswer : .answer 0 .superseded ∈ receipt.effects := by decide +kernel
  obtain ⟨htruthful, hsilent⟩ := superseded_truthful_unless_reported trialSettings failedRun hfresh
    _ receipt [] hcut 0 call trialHash hcall hstage
  have hreport : report ∈ ({} : Flow).history trialSettings failedRun := by
    rw [hcut]
    simp
  obtain ⟨hearly, hreports⟩ := htruthful hanswer report hreport hdiscloses
  exact ⟨hfresh, hcut, hdiscloses, hreports, hsilent ⟨report, hearly, hreports⟩ _ rfl⟩

/-- The failure of the execution ends the submission, is shown and is told, and the
call that waited for it is superseded. -/
theorem failure_told_before_superseded_in_failedRun :
    let report := (({} : Flow).reached trialSettings acceptedRun).turn trialSettings
      (.report trialHash false)
    let receipt := report.after.turn trialSettings (.mined 0 (.ok false))
    Fresh trialSettings failedRun ∧
      report.before.find? 0 = receipt.before.find? 0 ∧
      (receipt.before.find? 0).map (·.stage) = some (.sent trialHash) ∧
      report.before.desk.status = .pending ∧ report.after.desk.status = .error ∧
      report.notices = [.failed (Notice.failure (.notMined trialHash.text)) (some trialHash)] ∧
      receipt.effects = [.answer 0 .superseded] := by
  refine ⟨?_, ?_⟩
  · show List.Nodup _
    decide +kernel
  · decide +kernel

end Flow

end DonationFlow
