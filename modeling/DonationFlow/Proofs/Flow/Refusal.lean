import DonationFlow.Proofs.Flow.Lifecycle
import DonationFlow.Proofs.Flow.Routing
import DonationFlow.Proofs.Plan.Routes

/-!
# Refusals

A submission is refused without an account, while another is in progress, and
without an amount, and a refusal leaves everything as it was.  One refusal does
not: where the amount and the relay's fee together leave the range of a word, the
planner gives the error of a blank amount, and it does so when the submission is
past the refusals and has begun to touch the desk.  Main statement:
`refusals_atomic_unless_overflow`, by which there is no other such case.
-/

namespace DonationFlow

/-- The errors that mean that nothing was attempted. -/
def FlowError.isRefusal : FlowError → Bool
  | .notConnected | .zeroAmount | .busy => true
  | _ => false

/-- Of the refusals, planning gives that of a blank amount alone, and this where
the amount and the fee leave the range. -/
theorem Plan.overflows_of_isRefusal {intent : Intent} {campaign : Word} {contracts : Contracts}
    {error : FlowError} (h : ofIntent intent campaign contracts = .error error)
    (hrefusal : error.isRefusal = true) : error = .zeroAmount ∧ intent.Overflows contracts := by
  cases ofIntent_eq_error_iff.1 h with
  | overflow hoverflows => exact ⟨rfl, hoverflows⟩
  | route | contract => cases hrefusal

/-- The executor itself never answers with a refusal. -/
def Move.NeverRefuses : Move → Prop
  | .submitted _ (.error error) | .mined _ (.error error) => error.isRefusal = false
  | _ => True

namespace Flow

section Refusing

variable {settings : Settings} {flow after : Flow} {move : Move} {effects : List Effect}
  {error : FlowError}

/-- A submission that finds no plan gives the planner's error. -/
theorem plan_of_unplanned {desk : Desk} {cache : ReadCache} {account : Option Address}
    (hstatus : desk.status.isInProgress = false)
    (hsubmit : desk.submit settings cache account = (desk.unplanned error, .error error)) :
    Plan.ofIntent desk.intent settings.campaign settings.contracts = .error error := by
  cases account with
  | none =>
    have hdesk : desk = desk.unplanned error := congrArg Prod.fst hsubmit
    rw [Desk.unplanned_eq] at hdesk
    exact absurd (congrArg Desk.epoch hdesk) (Nat.succ_ne_self _).symm
  | some account =>
    rw [Desk.submit_eq_taken settings cache account hstatus (units_of_unplanned hsubmit),
      Desk.taken_eq] at hsubmit
    dsimp only at hsubmit
    split at hsubmit
    · rename_i cause hplan
      rw [hplan]
      exact congrArg Except.error (Except.error.inj (congrArg Prod.snd hsubmit))
    · split at hsubmit <;> cases congrArg Prod.snd hsubmit

/-- A call fails with what the executor answered, or because it was not mined. -/
theorem isRefusal_of_failure {call : OpenCall} {bridged : Bool} (hmove : move.NeverRefuses)
    (h : call.failure? move = some (error, bridged)) : error.isRefusal = false := by
  cases OpenCall.failure?_eq_some_iff.1 h with
  | approval | execution => exact hmove
  | @receipt id hash outcome hstage houtcome =>
    cases outcome with
    | error cause => exact hmove
    | ok confirmed => rfl

theorem isRefusal_of_settles {desk : Desk} {id : Nat} {hash : TxHash}
    {outcome : Except FlowError Bool} {result : Settled}
    (hmove : (Move.mined id outcome).NeverRefuses)
    (hsettles : Desk.Settles flow.desk hash outcome desk result)
    (hanswer : answerOf hash result = .failed error) : error.isRefusal = false := by
  cases hsettles with
  | @known applied => cases applied <;> cases hanswer
  | succeeded | strayed | lost => cases hanswer
  | failed =>
    obtain rfl := Answer.failed.inj hanswer
    cases outcome with
    | error cause => exact hmove
    | ok confirmed => rfl

/-- Nothing came of the turn but the answer to a submission, and the desk is as it
was or shows that no plan was found for an amount that overflows. -/
structure Refuses (settings : Settings) (turn : Turn) (id : Nat) (error : FlowError) : Prop where
  submits : ∃ cache account, turn.move = .submit cache account
  effects : turn.effects = [.answer id (.failed error)]
  calls : turn.after.calls = turn.before.calls
  desk : turn.after.desk = turn.before.desk ∨
    error = .zeroAmount ∧ turn.before.desk.status.isInProgress = false ∧
      turn.before.desk.intent.Overflows settings.contracts ∧
      turn.after.desk = turn.before.desk.unplanned .zeroAmount

theorem Step.refuses (step : Step settings flow move after effects)
    (hmove : move.NeverRefuses)
    (hresume : ∀ cache account error, flow.desk.resume settings cache account ≠ .error error)
    {id : Nat} (hanswer : .answer id (.failed error) ∈ effects)
    (hrefusal : error.isRefusal = true) :
    Refuses settings ⟨flow, move, after, effects⟩ id error := by
  cases step with
  | declined | retyped | missed | abandoned => cases hanswer
  | restarted => exact absurd hanswer (answer_not_mem_editRereads _ _ _ _ _)
  | reported => exact absurd hanswer (answer_not_mem_refreshes _ _ _)
  | approved => exact absurd hanswer (answer_not_mem_approvalRereads _ _ _ _ _)
  | refused =>
    cases List.mem_singleton.1 hanswer
    exact ⟨⟨_, _, rfl⟩, rfl, rfl, Or.inl rfl⟩
  | unplannable hstatus hsubmit =>
    cases List.mem_singleton.1 hanswer
    obtain ⟨rfl, hoverflows⟩ :=
      Plan.overflows_of_isRefusal (plan_of_unplanned hstatus hsubmit) hrefusal
    exact ⟨⟨_, _, rfl⟩, rfl, rfl, Or.inr ⟨rfl, hstatus, hoverflows, rfl⟩⟩
  | passed hpassed =>
    cases List.mem_singleton.1 hanswer
    rcases hpassed with ⟨-, hnothing⟩ | ⟨cause, hfailed, -⟩
    · cases hnothing
    · exact absurd hfailed (hresume _ _ cause)
  | asked | executed | resumed | approvalAccepted | executionAccepted | superseded | claimed =>
    cases List.mem_singleton.1 hanswer
  | failed _ _ hfailure =>
    cases List.mem_singleton.1 hanswer
    rw [isRefusal_of_failure hmove hfailure] at hrefusal
    cases hrefusal
  | settled _ _ hsettles =>
    obtain ⟨-, hresult⟩ := eq_answerOf_of_mem hanswer
    rw [isRefusal_of_settles hmove hsettles hresult.symm] at hrefusal
    cases hrefusal

end Refusing

/-- With an executor that never refuses, a call is answered with a refusal only in
the step that submits it, with nothing handed out and no call under way
touched.  The desk is as it was, unless the amount and the relay's fee overflow:
then the submission is refused as if it had no amount, but with a new epoch, the
error kept and the status `error` told. -/
theorem refusals_atomic_unless_overflow (settings : Settings) (moves : List Move)
    (hexecutor : ∀ move ∈ moves, move.NeverRefuses) :
    (∀ turn ∈ ({} : Flow).history settings moves, ∀ id error,
      .answer id (.failed error) ∈ turn.effects → error.isRefusal = true →
      Refuses settings turn id error) ∧
    (∀ cache account, let desk := (({} : Flow).reached settings moves).desk
      desk.status.isInProgress = false → desk.intent.Overflows settings.contracts →
      desk.submit settings cache (some account) =
        (desk.unplanned .zeroAmount, .error .zeroAmount)) := by
  constructor
  · intro turn hturn id error hanswer hrefusal
    obtain ⟨early, move, late, rfl, rfl⟩ := exists_of_mem_history hturn
    have hmove := hexecutor move (List.mem_append_right _ List.mem_cons_self)
    exact (steps settings _ move).refuses hmove resume_ne_error hanswer hrefusal
  · intro cache account desk hstatus hoverflows
    rw [Desk.submit_eq_taken settings cache account hstatus hoverflows.units, Desk.taken_eq,
      Plan.ofIntent_of_overflows hoverflows]

/-- The greatest amount of the native asset is submitted on Ethereum, where the
relay asks a fee. -/
def overflowRun : List Move :=
  let greatest := "115792089237316195423570985008687907853269984665640564039457.584007913129639935"
  [.edit none { chainId := some 1, token := some "ETH", amount := some greatest },
    .submit {} (some default)]

theorem refusals_atomic_unless_overflow_of_overflowRun :
    (∀ move ∈ overflowRun, move.NeverRefuses) ∧
    (∃ turn ∈ ({} : Flow).history bridgeSettings overflowRun,
      .answer 0 (.failed .zeroAmount) ∈ turn.effects ∧
      Refuses bridgeSettings turn 0 .zeroAmount) ∧
    let desk := (({} : Flow).reached bridgeSettings (overflowRun.take 1)).desk
    desk.status.isInProgress = false ∧ desk.intent.Overflows bridgeSettings.contracts ∧
      desk.submit bridgeSettings {} (some default) =
        (desk.unplanned .zeroAmount, .error .zeroAmount) := by
  have hexecutor : ∀ move ∈ overflowRun, move.NeverRefuses := by
    intro move hmove
    rcases List.mem_cons.1 hmove with rfl | hmove
    · trivial
    · rw [List.mem_singleton.1 hmove]
      trivial
  refine ⟨hexecutor, ?_, ?_⟩
  · let turn := (({} : Flow).reached bridgeSettings (overflowRun.take 1)).turn bridgeSettings
      (.submit {} (some default))
    have hturn : turn ∈ ({} : Flow).history bridgeSettings overflowRun :=
      List.mem_cons_of_mem _ List.mem_cons_self
    have hanswer : .answer 0 (.failed .zeroAmount) ∈ turn.effects := by decide +kernel
    exact ⟨turn, hturn, hanswer,
      (refusals_atomic_unless_overflow bridgeSettings overflowRun hexecutor).1 turn hturn 0
        .zeroAmount hanswer rfl⟩
  · intro desk
    have hstatus : desk.status.isInProgress = false := by decide +kernel
    have hoverflows : desk.intent.Overflows bridgeSettings.contracts :=
      ⟨by decide +kernel, by decide +kernel, by decide +kernel, by decide +kernel,
        by decide +kernel⟩
    have hprefix : ∀ move ∈ overflowRun.take 1, move.NeverRefuses :=
      fun move hmove => hexecutor move (List.mem_of_mem_take hmove)
    exact ⟨hstatus, hoverflows,
      (refusals_atomic_unless_overflow bridgeSettings (overflowRun.take 1) hprefix).2 {} default
        hstatus hoverflows⟩

/-- The submission is refused as if it had no amount, and yet there is a new epoch,
an error is kept, and the status `error` is shown and told. -/
theorem desk_touched_by_refusal_in_overflowRun :
    let before := ({} : Flow).reached bridgeSettings (overflowRun.take 1)
    let turn := before.turn bridgeSettings (.submit {} (some default))
    turn.effects = [.answer 0 (.failed .zeroAmount)] ∧
      before.desk.epoch = 1 ∧ turn.after.desk.epoch = 2 ∧
      before.desk.lastError = none ∧ turn.after.desk.lastError = some .zeroAmount ∧
      before.desk.status = .idle ∧ turn.after.desk.status = .error ∧
      turn.events = [.status .error] := by
  decide +kernel

end Flow

end DonationFlow
