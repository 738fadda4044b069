import DonationFlow.Proofs.Flow.History
import Mathlib.Data.List.Nodup

/-!
# Who holds the current intent

A call is current if its attempt has the epoch of the desk.  Of each of the two
parts of a submission, the way to its approval and the execution, there is at
most one current call, and the status tells how far it has come.  `Owned` is
this invariant; `owned_reached` says that no run leaves it.
-/

namespace DonationFlow

/-- Whether the stage belongs to the way to an approval. -/
def Stage.approves : Stage → Bool
  | .approving | .approvalSent _ | .approved => true
  | .executing | .sent _ => false

/-- What the desk shows while a current call is at the stage. -/
def Desk.Shows (desk : Desk) : Stage → Prop
  | .approving | .approvalSent _ => desk.status = .approving
  | .approved => True
  | .executing => desk.status = .pending ∧ desk.inFlight = none
  | .sent hash => desk.status ≠ .approving ∧ desk.status ≠ .approved ∧
      ∀ flight, desk.inFlight = some flight → flight.hash = hash

namespace Flow

/-! ## Calls under way -/

/-- The calls have distinct ids, all of them below that of the next call. -/
structure Numbered (flow : Flow) : Prop where
  distinct : (flow.calls.map (·.id)).Nodup
  below : ∀ call ∈ flow.calls, call.id < flow.next

theorem mem_of_find? {flow : Flow} {id : Nat} {call : OpenCall} (h : flow.find? id = some call) :
    call ∈ flow.calls := List.mem_of_find?_eq_some h

theorem Numbered.eq_of_id {flow : Flow} (h : flow.Numbered) {left right : OpenCall}
    (hleft : left ∈ flow.calls) (hright : right ∈ flow.calls) (hid : left.id = right.id) :
    left = right := List.inj_on_of_nodup_map h.distinct hleft hright hid

theorem mem_drop_iff {flow : Flow} {id : Nat} {call : OpenCall} :
    call ∈ (flow.drop id).calls ↔ call ∈ flow.calls ∧ call.id ≠ id := by
  simp [drop]

theorem mem_push_iff {flow : Flow} {attempt : Attempt} {stage : Stage} {call : OpenCall} :
    call ∈ (flow.push attempt stage).calls ↔
      call ∈ flow.calls ∨ call = ⟨flow.next, attempt, stage⟩ := by
  simp [push]

/-- After a call has come to its next stage, a call is that one or one of the
others as it was. -/
theorem Numbered.mem_advance_iff {flow : Flow} (h : flow.Numbered) {id : Nat} {moved : OpenCall}
    (hmoved : flow.find? id = some moved) {stage : Stage} {call : OpenCall} :
    call ∈ (flow.advance id stage).calls ↔
      call = { moved with stage } ∨ call ∈ flow.calls ∧ call.id ≠ id := by
  have hid := id_of_find? hmoved
  simp only [advance, List.mem_map]
  constructor
  · rintro ⟨other, hother, rfl⟩
    split
    · rename_i hsame
      rw [h.eq_of_id hother (mem_of_find? hmoved) (hsame.trans hid.symm)]
      exact Or.inl rfl
    · rename_i hne
      exact Or.inr ⟨hother, hne⟩
  · rintro (rfl | ⟨hcall, hne⟩)
    · exact ⟨moved, mem_of_find? hmoved, by rw [if_pos hid]⟩
    · exact ⟨call, hcall, by rw [if_neg hne]⟩

theorem Numbered.push {flow : Flow} (h : flow.Numbered) (attempt : Attempt) (stage : Stage) :
    (flow.push attempt stage).Numbered where
  distinct := by
    simp only [Flow.push, List.map_append, List.map_cons, List.map_nil]
    rw [List.nodup_append]
    refine ⟨h.distinct, by simp, ?_⟩
    intro id hid other hother heq
    obtain ⟨call, hcall, rfl⟩ := List.mem_map.1 hid
    have := h.below call hcall
    simp only [List.mem_singleton] at hother
    omega
  below := by
    intro call hcall
    rcases mem_push_iff.1 hcall with hcall | rfl
    · exact Nat.lt_succ_of_lt (h.below call hcall)
    · exact Nat.lt_succ_self _

theorem Numbered.find?_push {flow : Flow} (h : flow.Numbered) (attempt : Attempt) (stage : Stage) :
    (flow.push attempt stage).find? flow.next = some ⟨flow.next, attempt, stage⟩ := by
  have hnone : flow.calls.find? (·.id = flow.next) = none := by
    rw [List.find?_eq_none]
    intro call hcall
    have := h.below call hcall
    simp only [decide_eq_true_eq]
    omega
  rw [find?, Flow.push, List.find?_append, hnone]
  simp

theorem find?_advance {flow : Flow} {id : Nat} {call : OpenCall} (h : flow.find? id = some call)
    (stage : Stage) : (flow.advance id stage).find? id = some { call with stage } := by
  have hids : ((fun call : OpenCall => decide (call.id = id)) ∘
      fun call => if call.id = id then { call with stage } else call) =
      fun call => decide (call.id = id) := by
    funext other
    by_cases hother : other.id = id <;> simp [hother]
  rw [find?, advance, List.find?_map, hids]
  rw [find?] at h
  rw [h, Option.map_some, if_pos (id_of_find? h)]

theorem Numbered.advance {flow : Flow} (h : flow.Numbered) (id : Nat) (stage : Stage) :
    (flow.advance id stage).Numbered where
  distinct := by
    have hids : (flow.advance id stage).calls.map (·.id) = flow.calls.map (·.id) := by
      simp only [Flow.advance, List.map_map]
      apply List.map_congr_left
      intro call _
      simp only [Function.comp]
      split <;> rfl
    rw [hids]
    exact h.distinct
  below := by
    intro call hcall
    simp only [Flow.advance, List.mem_map] at hcall
    obtain ⟨other, hother, rfl⟩ := hcall
    have := h.below other hother
    split <;> exact this

theorem Numbered.drop {flow : Flow} (h : flow.Numbered) (id : Nat) : (flow.drop id).Numbered where
  distinct := h.distinct.sublist (List.filter_sublist.map _)
  below := fun call hcall => h.below call (mem_drop_iff.1 hcall).1

/-- The desk plays no part in how calls are numbered. -/
theorem Numbered.withDesk {flow : Flow} (h : flow.Numbered) (desk : Desk) :
    ({ flow with desk } : Flow).Numbered := ⟨h.distinct, h.below⟩

theorem Numbered.skip {flow : Flow} (h : flow.Numbered) :
    ({ flow with next := flow.next + 1 } : Flow).Numbered :=
  ⟨h.distinct, fun call hcall => Nat.lt_succ_of_lt (h.below call hcall)⟩

/-! ## Plans -/

/-- Every call under way carries the plan of its own intent. -/
def Planned (settings : Settings) (flow : Flow) : Prop :=
  ∀ call ∈ flow.calls, Plan.ofIntent call.attempt.intent settings.campaign settings.contracts =
    .ok call.attempt.plan

theorem Step.planned {settings : Settings} {flow after : Flow} {move : Move}
    {effects : List Effect} (step : Step settings flow move after effects)
    (hnumbered : flow.Numbered) (h : flow.Planned settings) : after.Planned settings := by
  intro call hcall
  cases step with
  | declined | missed | restarted | retyped | reported | refused | passed | unplannable =>
    exact h call hcall
  | asked _ _ _ hplan | executed _ _ _ hplan | resumed _ _ _ _ _ hplan =>
    rcases mem_push_iff.1 hcall with hcall | rfl
    · exact h call hcall
    · exact hplan
  | approvalAccepted hmoved | executionAccepted hmoved | approved hmoved | claimed hmoved =>
    have hplan := h _ (mem_of_find? hmoved)
    rcases (hnumbered.withDesk _).mem_advance_iff hmoved |>.1 hcall with rfl | ⟨hcall, -⟩
    · exact hplan
    · exact h call hcall
  | failed | settled | superseded | abandoned => exact h call (mem_drop_iff.1 hcall).1

/-! ## The invariant -/

structure Owned (flow : Flow) : Prop where
  numbered : flow.Numbered
  epoch_le : ∀ call ∈ flow.calls, call.attempt.epoch ≤ flow.desk.epoch
  shows : ∀ call ∈ flow.calls, call.attempt.epoch = flow.desk.epoch → flow.desk.Shows call.stage
  single : ∀ left ∈ flow.calls, ∀ right ∈ flow.calls,
    left.attempt.epoch = flow.desk.epoch → right.attempt.epoch = flow.desk.epoch →
    left.stage.approves = right.stage.approves → left = right
  flight_pending : ∀ flight, flow.desk.inFlight = some flight → flow.desk.status = .pending

variable {settings : Settings} {flow : Flow}

theorem Owned.shows_of_find? (h : flow.Owned) {id : Nat} {call : OpenCall} {stage : Stage}
    (hcall : flow.find? id = some call) (hepoch : flow.desk.epoch = call.attempt.epoch)
    (hstage : call.stage = stage) : flow.desk.Shows stage := by
  rw [← hstage]
  exact h.shows call (mem_of_find? hcall) hepoch.symm

theorem Owned.inFlight_eq_none (h : flow.Owned) (hstatus : flow.desk.status ≠ .pending) :
    flow.desk.inFlight = none := by
  cases hflight : flow.desk.inFlight with
  | none => rfl
  | some flight => exact absurd (h.flight_pending flight hflight) hstatus

theorem Owned.free_of_idle (h : flow.Owned) (hstatus : flow.desk.status.isInProgress = false) :
    flow.desk.inFlight = none := by
  apply h.inFlight_eq_none
  intro hpending
  rw [hpending] at hstatus
  cases hstatus

/-- With a new epoch no call under way is current any more. -/
theorem Owned.renew (h : flow.Owned) {desk : Desk} (hepoch : desk.epoch = flow.desk.epoch + 1)
    (hflight : desk.inFlight = none) : ({ flow with desk } : Flow).Owned := by
  have hstale : ∀ call ∈ flow.calls, call.attempt.epoch ≠ desk.epoch := by
    intro call hcall heq
    have := h.epoch_le call hcall
    omega
  exact
    { numbered := h.numbered.withDesk desk
      epoch_le := fun call hcall => by
        have := h.epoch_le call hcall
        show call.attempt.epoch ≤ desk.epoch
        omega
      shows := fun call hcall heq => absurd heq (hstale call hcall)
      single := fun left hleft _ _ heq => absurd heq (hstale left hleft)
      flight_pending := fun flight hsome => by
        rw [hflight] at hsome
        cases hsome }

/-- A new call may join if no current call does the same part. -/
theorem Owned.push (h : flow.Owned) {attempt : Attempt} {stage : Stage}
    (hepoch : attempt.epoch = flow.desk.epoch) (hshows : flow.desk.Shows stage)
    (hfree : ∀ call ∈ flow.calls, call.attempt.epoch = flow.desk.epoch →
      call.stage.approves ≠ stage.approves) : (flow.push attempt stage).Owned where
  numbered := h.numbered.push attempt stage
  epoch_le := by
    intro call hcall
    rcases mem_push_iff.1 hcall with hcall | rfl
    · exact h.epoch_le call hcall
    · exact Nat.le_of_eq hepoch
  shows := by
    intro call hcall heq
    rcases mem_push_iff.1 hcall with hcall | rfl
    · exact h.shows call hcall heq
    · exact hshows
  single := by
    intro left hleft right hright hl hr happroves
    rcases mem_push_iff.1 hleft with hleft | rfl <;> rcases mem_push_iff.1 hright with hright | rfl
    · exact h.single left hleft right hright hl hr happroves
    · exact absurd happroves (hfree left hleft hl)
    · exact absurd happroves.symm (hfree right hright hr)
    · rfl
  flight_pending := h.flight_pending

theorem Owned.drop (h : flow.Owned) (id : Nat) : (flow.drop id).Owned where
  numbered := h.numbered.drop id
  epoch_le := fun call hcall => h.epoch_le call (mem_drop_iff.1 hcall).1
  shows := fun call hcall => h.shows call (mem_drop_iff.1 hcall).1
  single := fun left hleft right hright =>
    h.single left (mem_drop_iff.1 hleft).1 right (mem_drop_iff.1 hright).1
  flight_pending := h.flight_pending

theorem Owned.skip (h : flow.Owned) : ({ flow with next := flow.next + 1 } : Flow).Owned :=
  ⟨h.numbered.skip, h.epoch_le, h.shows, h.single, h.flight_pending⟩

/-- The desk may change within an epoch as long as it still shows the stage of
each current call. -/
theorem Owned.withDesk (h : flow.Owned) {desk : Desk} (hepoch : desk.epoch = flow.desk.epoch)
    (hshows : ∀ call ∈ flow.calls, call.attempt.epoch = flow.desk.epoch →
      desk.Shows call.stage)
    (hflight : ∀ flight, desk.inFlight = some flight → desk.status = .pending) :
    ({ flow with desk } : Flow).Owned where
  numbered := h.numbered.withDesk desk
  epoch_le := fun call hcall => hepoch ▸ h.epoch_le call hcall
  shows := fun call hcall heq => hshows call hcall (heq.trans hepoch)
  single := fun left hleft right hright hl hr =>
    h.single left hleft right hright (hl.trans hepoch) (hr.trans hepoch)
  flight_pending := hflight

/-- A call may come to a stage that the desk shows, if no other current call
does the same part. -/
theorem Owned.advance (h : flow.Owned) {id : Nat} {moved : OpenCall} {stage : Stage}
    (hmoved : flow.find? id = some moved)
    (hshows : moved.attempt.epoch = flow.desk.epoch → flow.desk.Shows stage)
    (hfree : ∀ call ∈ flow.calls, call.id ≠ id → moved.attempt.epoch = flow.desk.epoch →
      call.attempt.epoch = flow.desk.epoch → call.stage.approves ≠ stage.approves) :
    (flow.advance id stage).Owned where
  numbered := h.numbered.advance id stage
  epoch_le := by
    intro call hcall
    rcases (h.numbered.mem_advance_iff hmoved).1 hcall with rfl | ⟨hcall, -⟩
    · exact h.epoch_le moved (mem_of_find? hmoved)
    · exact h.epoch_le call hcall
  shows := by
    intro call hcall heq
    rcases (h.numbered.mem_advance_iff hmoved).1 hcall with rfl | ⟨hcall, -⟩
    · exact hshows heq
    · exact h.shows call hcall heq
  single := by
    intro left hleft right hright hl hr happroves
    rcases (h.numbered.mem_advance_iff hmoved).1 hleft with rfl | ⟨hleft, hne⟩ <;>
      rcases (h.numbered.mem_advance_iff hmoved).1 hright with rfl | ⟨hright, hne'⟩
    · rfl
    · exact absurd happroves.symm (hfree right hright hne' hl hr)
    · exact absurd happroves (hfree left hleft hne hr hl)
    · exact h.single left hleft right hright hl hr happroves
  flight_pending := h.flight_pending

/-- No other current call does the part of the one that moves. -/
theorem Owned.free_of_approves (h : flow.Owned) {id : Nat} {moved : OpenCall} {stage : Stage}
    (hmoved : flow.find? id = some moved) (hstage : moved.stage.approves = stage.approves) :
    ∀ call ∈ flow.calls, call.id ≠ id → moved.attempt.epoch = flow.desk.epoch →
      call.attempt.epoch = flow.desk.epoch → call.stage.approves ≠ stage.approves := by
  intro call hcall hne hmovedEpoch hepoch happroves
  have heq := h.single call hcall moved (mem_of_find? hmoved) hepoch hmovedEpoch
    (happroves.trans hstage.symm)
  rw [heq] at hne
  exact hne (id_of_find? hmoved)

/-- Of two current calls one is approved and the other, which took up the
execution, is further on. -/
theorem Owned.approved_beside (h : flow.Owned) {id : Nat} {call other : OpenCall}
    (hcall : flow.find? id = some call) (hother : other ∈ flow.calls) (hne : other.id ≠ id)
    (hepoch : flow.desk.epoch = call.attempt.epoch)
    (hcurrent : other.attempt.epoch = flow.desk.epoch) (hstage : call.stage ≠ .approved) :
    other.stage = .approved ∧ call.stage.approves = false := by
  have hshows := h.shows_of_find? hcall hepoch rfl
  have hshown := h.shows other hother hcurrent
  have hparts : call.stage.approves ≠ other.stage.approves := by
    intro happroves
    apply hne
    rw [← h.single call (mem_of_find? hcall) other hother hepoch.symm hcurrent happroves]
    exact id_of_find? hcall
  cases hmine : call.stage <;> rw [hmine] at hshows hparts hstage
  case approving | approvalSent =>
    cases htheirs : other.stage <;> rw [htheirs] at hshown hparts
    case executing => exact absurd (hshows.symm.trans hshown.1) (by simp)
    case sent => exact absurd hshows hshown.1
    all_goals exact absurd rfl hparts
  case approved => exact absurd rfl hstage
  case executing =>
    cases htheirs : other.stage <;> rw [htheirs] at hshown hparts
    case approving | approvalSent => exact absurd (hshown.symm.trans hshows.1) (by simp)
    case executing | sent => exact absurd rfl hparts
    all_goals exact ⟨rfl, rfl⟩
  case sent =>
    cases htheirs : other.stage <;> rw [htheirs] at hshown hparts
    case approving | approvalSent => exact absurd hshown hshows.1
    case executing | sent => exact absurd rfl hparts
    all_goals exact ⟨rfl, rfl⟩

/-- A submission that starts a new epoch is its only current call. -/
theorem Owned.start (h : flow.Owned) {desk : Desk} {attempt : Attempt} {stage : Stage}
    (hattempt : attempt.epoch = flow.desk.epoch + 1) (hepoch : desk.epoch = flow.desk.epoch + 1)
    (hflight : desk.inFlight = none) (hshows : desk.Shows stage) :
    (({ flow with desk } : Flow).push attempt stage).Owned := by
  apply (h.renew hepoch hflight).push (hattempt.trans hepoch.symm) hshows
  intro call hcall heq
  have hle := h.epoch_le call hcall
  have heq : call.attempt.epoch = desk.epoch := heq
  omega

/-! ## Every step keeps it -/

theorem shows_typeIf {desk : Desk} {stage : Stage} (amount : Option String)
    (h : desk.Shows stage) : (desk.typeIf amount).Shows stage := by
  cases stage with
  | approving | approvalSent =>
    have hstatus : desk.status = .approving := h
    show (desk.typeIf amount).status = .approving
    rw [Desk.typeIf_status_of_not_terminal amount (by rw [hstatus]; rfl)]
    exact hstatus
  | approved => trivial
  | executing =>
    obtain ⟨hstatus, hflight⟩ := h
    refine ⟨?_, (Desk.typeIf_inFlight desk amount).trans hflight⟩
    rw [Desk.typeIf_status_of_not_terminal amount (by rw [hstatus]; rfl)]
    exact hstatus
  | sent hash =>
    obtain ⟨happroving, happroved, hflight⟩ := h
    rw [← Desk.typeIf_inFlight desk amount] at hflight
    rcases desk.typeIf_status amount with heq | ⟨-, heq⟩
    · rw [← heq] at happroving happroved
      exact ⟨happroving, happroved, hflight⟩
    · refine ⟨?_, ?_, hflight⟩ <;> rw [heq] <;> simp

/-- Settling an execution in flight leaves a final status and nothing in
flight; settling anything else leaves both alone. -/
theorem settles_inFlight {desk after : Desk} {hash : TxHash} {outcome : Except FlowError Bool}
    {settled : Settled} (h : Desk.Settles desk hash outcome after settled) :
    after.epoch = desk.epoch ∧
      (after.status = desk.status ∧ after.inFlight = desk.inFlight ∨
        desk.inFlight ≠ none ∧ after.status.isTerminal = true ∧ after.inFlight = none) := by
  cases h with
  | known | strayed | lost => exact ⟨rfl, Or.inl ⟨rfl, rfl⟩⟩
  | succeeded _ hflight =>
    rw [Desk.applySuccess_eq, hflight]
    exact ⟨rfl, Or.inr ⟨by simp, rfl, rfl⟩⟩
  | failed _ hflight =>
    rw [Desk.applyFailure_eq, hflight]
    exact ⟨rfl, Or.inr ⟨by simp, rfl, rfl⟩⟩

theorem Owned.settle (h : flow.Owned) {hash : TxHash} {outcome : Except FlowError Bool}
    {desk : Desk} {settled : Settled}
    (hsettles : Desk.Settles flow.desk hash outcome desk settled) :
    ({ flow with desk } : Flow).Owned := by
  obtain ⟨hepoch, ⟨hstatus, hflight⟩ | ⟨hflying, hterminal, hnone⟩⟩ := settles_inFlight hsettles
  · refine h.withDesk hepoch ?_ ?_
    · intro call hcall heq
      have hshows := h.shows call hcall heq
      cases hstage : call.stage <;> rw [hstage] at hshows <;>
        simp only [Desk.Shows, hstatus, hflight] at hshows ⊢ <;> exact hshows
    · intro flight hsome
      rw [hstatus]
      exact h.flight_pending flight (hflight ▸ hsome)
  · obtain ⟨flight, hsome⟩ := Option.ne_none_iff_exists'.1 hflying
    have hpending := h.flight_pending flight hsome
    refine h.withDesk hepoch ?_ (by simp [hnone])
    intro call hcall heq
    have hshows := h.shows call hcall heq
    cases hstage : call.stage with
    | approving | approvalSent =>
      rw [hstage] at hshows
      exact absurd (hshows.symm.trans hpending) (by simp)
    | approved => trivial
    | executing =>
      rw [hstage] at hshows
      exact absurd (hshows.2.symm.trans hsome) (by simp)
    | sent =>
      refine ⟨?_, ?_, by simp [hnone]⟩ <;> intro hstatus <;> rw [hstatus] at hterminal <;>
        cases hterminal

/-- While the status is `approved`, no current call is at the execution. -/
theorem Owned.approves_of_approved (h : flow.Owned) (hstatus : flow.desk.status = .approved)
    {call : OpenCall} (hcall : call ∈ flow.calls)
    (hepoch : call.attempt.epoch = flow.desk.epoch) : call.stage = .approved := by
  have hshows := h.shows call hcall hepoch
  cases hstage : call.stage with
  | approving | approvalSent =>
    rw [hstage] at hshows
    exact absurd (hshows.symm.trans hstatus) (by simp)
  | approved => rfl
  | executing =>
    rw [hstage] at hshows
    exact absurd (hshows.1.symm.trans hstatus) (by simp)
  | sent =>
    rw [hstage] at hshows
    exact absurd hstatus hshows.2.1

/-- Whoever takes up an approved execution is the only one to execute. -/
theorem Owned.begin (h : flow.Owned) (hstatus : flow.desk.status = .approved) (plan : Plan) :
    ({ flow with desk := flow.desk.beginExecution plan } : Flow).Owned := by
  have hflight := h.inFlight_eq_none (by simp [hstatus])
  rw [Desk.beginExecution_eq]
  refine h.withDesk rfl ?_ (fun _ _ => rfl)
  intro call hcall hepoch
  rw [h.approves_of_approved hstatus hcall hepoch]
  trivial

/-- A call fails while it waits for the executor, or for the receipt of its
approval. -/
theorem stage_of_failure {call : OpenCall} {move : Move} {error : FlowError} {bridged : Bool}
    (h : call.failure? move = some (error, bridged)) :
    call.stage = .approving ∨ (∃ hash, call.stage = .approvalSent hash) ∨
      call.stage = .executing := by
  cases OpenCall.failure?_eq_some_iff.1 h with
  | approval hstage => exact Or.inl hstage
  | receipt hstage => exact Or.inr (Or.inl ⟨_, hstage⟩)
  | execution hstage => exact Or.inr (Or.inr hstage)

/-- The status says how far a call of the current epoch had come when it failed:
on the way to its approval, or at the execution. -/
theorem Owned.status_of_failure (h : flow.Owned) {move : Move} {id : Nat} {call : OpenCall}
    {error : FlowError} {bridged : Bool} (hcall : flow.find? id = some call)
    (hfailure : call.failure? move = some (error, bridged))
    (hepoch : flow.desk.epoch = call.attempt.epoch) :
    call.stage.approves = true ∧ flow.desk.status = .approving ∨
      call.stage.approves = false ∧ flow.desk.status = .pending ∧ flow.desk.inFlight = none := by
  have hshows := h.shows call (mem_of_find? hcall) hepoch.symm
  rcases stage_of_failure hfailure with hstage | ⟨_, hstage⟩ | hstage <;> rw [hstage] at hshows ⊢
  · exact Or.inl ⟨rfl, hshows⟩
  · exact Or.inl ⟨rfl, hshows⟩
  · exact Or.inr ⟨rfl, hshows⟩

/-- A call of the current epoch can only fail while its submission is in
progress. -/
theorem Owned.isInProgress_of_failure (h : flow.Owned) {move : Move} {id : Nat}
    {call : OpenCall} {error : FlowError} {bridged : Bool} (hcall : flow.find? id = some call)
    (hfailure : call.failure? move = some (error, bridged))
    (hepoch : flow.desk.epoch = call.attempt.epoch) : flow.desk.status.isInProgress = true := by
  rcases h.status_of_failure hcall hfailure hepoch with ⟨-, hstatus⟩ | ⟨-, hstatus, -⟩ <;>
    rw [hstatus] <;> rfl

/-- Nothing is in flight when a call of the current epoch fails. -/
theorem Owned.inFlight_eq_none_of_failure (h : flow.Owned) {move : Move} {id : Nat}
    {call : OpenCall} {error : FlowError} {bridged : Bool} (hcall : flow.find? id = some call)
    (hfailure : call.failure? move = some (error, bridged))
    (hepoch : flow.desk.epoch = call.attempt.epoch) : flow.desk.inFlight = none := by
  rcases h.status_of_failure hcall hfailure hepoch with ⟨-, hstatus⟩ | ⟨-, -, hflight⟩
  · exact h.inFlight_eq_none (by rw [hstatus]; simp)
  · exact hflight

/-- A failing call of the current epoch takes the status to `error`. -/
theorem Owned.failWith (h : flow.Owned) {move : Move} {id : Nat} {call : OpenCall}
    {error : FlowError} {bridged : Bool} (hcall : flow.find? id = some call)
    (hfailure : call.failure? move = some (error, bridged))
    (hepoch : flow.desk.epoch = call.attempt.epoch) :
    ({ flow with desk := flow.desk.failWith error bridged }.drop id : Flow).Owned := by
  have hflight := h.inFlight_eq_none_of_failure hcall hfailure hepoch
  rw [Desk.failWith_eq]
  refine (h.drop id).withDesk rfl ?_ (fun flight hsome => ?_)
  · intro other hother hcurrent
    obtain ⟨hother, hne⟩ := mem_drop_iff.1 hother
    obtain ⟨happroved, -⟩ := h.approved_beside hcall hother hne hepoch hcurrent (by
      rcases stage_of_failure hfailure with hstage | ⟨_, hstage⟩ | hstage <;> simp [hstage])
    rw [happroved]
    trivial
  · exact absurd (hflight.symm.trans hsome) (by simp)

theorem Step.owned {after : Flow} {move : Move} {effects : List Effect}
    (step : Step settings flow move after effects) (h : flow.Owned) : after.Owned := by
  cases step with
  | declined | missed => exact h
  | restarted =>
    refine h.renew ?_ ?_
    · rw [Desk.typeIf_epoch, Desk.reset_eq]
    · rw [Desk.typeIf_inFlight, Desk.reset_eq]
  | retyped =>
    refine h.withDesk (Desk.typeIf_epoch _ _) ?_ ?_
    · exact fun call hcall hepoch => shows_typeIf _ (h.shows call hcall hepoch)
    · intro flight hsome
      rw [Desk.typeIf_inFlight] at hsome
      have hpending := h.flight_pending flight hsome
      rw [Desk.typeIf_status_of_not_terminal _ (by rw [hpending]; rfl)]
      exact hpending
  | refused | passed => exact h.skip
  | @unplannable _ _ error hstatus =>
    have hrenewed : ({ flow with desk := flow.desk.unplanned error } : Flow).Owned := by
      rw [Desk.unplanned_eq]
      exact h.renew rfl (h.free_of_idle hstatus)
    exact hrenewed.skip
  | asked hstatus _ hattempt =>
    rw [Desk.enter_eq, Desk.taken_eq]
    exact h.start hattempt.1 rfl (h.free_of_idle hstatus) rfl
  | executed hstatus _ hattempt =>
    have hflight := h.free_of_idle hstatus
    rw [Desk.beginExecution_eq, Desk.taken_eq]
    exact h.start hattempt.1 rfl hflight ⟨rfl, hflight⟩
  | resumed hstatus hflight _ _ hattempt =>
    have hbegun := h.begin hstatus
    simp only [Desk.beginExecution_eq] at hbegun ⊢
    refine (hbegun _).push hattempt.1 ⟨rfl, hflight⟩ ?_
    intro call hcall hepoch
    rw [h.approves_of_approved hstatus hcall hepoch]
    simp [Stage.approves]
  | reported hsettles => exact h.settle hsettles
  | @approvalAccepted id call hash hcall hstage =>
    have happroving : call.attempt.epoch = flow.desk.epoch → flow.desk.status = .approving :=
      fun hepoch => h.shows_of_find? hcall hepoch.symm hstage
    exact h.advance hcall happroving
      (h.free_of_approves hcall (by rw [hstage]; rfl))
  | @executionAccepted id call hash hcall hstage =>
    have hsent : (flow.advance id (.sent hash)).Owned := by
      refine h.advance hcall (fun hepoch => ?_) (h.free_of_approves hcall (by rw [hstage]; rfl))
      obtain ⟨hpending, hflight⟩ := h.shows_of_find? hcall hepoch.symm hstage
      exact ⟨by rw [hpending]; simp, by rw [hpending]; simp, by simp [hflight]⟩
    unfold Desk.recordFlight
    split
    · rename_i hepoch
      obtain ⟨hpending, hflight⟩ := h.shows_of_find? hcall hepoch hstage
      refine hsent.withDesk rfl ?_ (fun _ _ => hpending)
      intro other hother hcurrent
      have hshown := hsent.shows other hother hcurrent
      rcases (h.numbered.mem_advance_iff hcall).1 hother with rfl | ⟨hother, hne⟩
      · refine ⟨hshown.1, hshown.2.1, ?_⟩
        rintro flight ⟨⟩
        rfl
      · obtain ⟨happroved, -⟩ :=
          h.approved_beside hcall hother hne hepoch hcurrent (by simp [hstage])
        rw [happroved]
        trivial
    · exact hsent
  | failed _ hcall hfailure hepoch => exact h.failWith hcall hfailure hepoch
  | superseded | abandoned => exact h.drop _
  | @approved id call hash hcall hstage hepoch =>
    have hshows : flow.desk.status = .approving := h.shows_of_find? hcall hepoch hstage
    have happroved : (flow.advance id .approved).Owned :=
      h.advance hcall (fun _ => trivial) (h.free_of_approves hcall (by rw [hstage]; rfl))
    rw [Desk.enter_eq]
    refine happroved.withDesk rfl ?_ ?_
    · intro other hother hcurrent
      rcases (h.numbered.mem_advance_iff hcall).1 hother with rfl | ⟨hother, hne⟩
      · trivial
      · obtain ⟨-, hexecutes⟩ :=
          h.approved_beside hcall hother hne hepoch hcurrent (by simp [hstage])
        rw [hstage] at hexecutes
        cases hexecutes
    · intro flight hsome
      exact absurd ((h.inFlight_eq_none (by rw [hshows]; simp)).symm.trans hsome) (by simp)
  | claimed hcall hstage hepoch hstatus =>
    have hbegun := h.begin hstatus
    have hflight := h.inFlight_eq_none (by simp [hstatus])
    simp only [Desk.beginExecution_eq] at hbegun ⊢
    refine (hbegun _).advance hcall (fun _ => ⟨rfl, hflight⟩) ?_
    intro call hcall _ _ hepoch
    rw [h.approves_of_approved hstatus hcall hepoch]
    simp [Stage.approves]
  | settled _ _ hsettles => exact (h.settle hsettles).drop _

theorem owned_start : ({} : Flow).Owned where
  numbered := ⟨List.nodup_nil, fun _ hcall => nomatch hcall⟩
  epoch_le := fun _ hcall => nomatch hcall
  shows := fun _ hcall => nomatch hcall
  single := fun _ hcall => nomatch hcall
  flight_pending := fun _ hflight => nomatch hflight

theorem Owned.reached (h : flow.Owned) (settings : Settings) (moves : List Move) :
    (flow.reached settings moves).Owned :=
  reached_induction (fun flow move h => (steps settings flow move).owned h) h moves

/-- No run from the start leaves the invariant. -/
theorem owned_reached (settings : Settings) (moves : List Move) :
    (({} : Flow).reached settings moves).Owned := owned_start.reached settings moves

/-- What each turn of a run keeps, given the invariant, holds at its end. -/
theorem Owned.reached_induction (howned : flow.Owned) {moves : List Move} {P : Flow → Prop}
    (start : P flow)
    (turn : ∀ turn ∈ flow.history settings moves, turn.before.Owned → P turn.before →
      P turn.after) : P (flow.reached settings moves) := by
  induction moves generalizing flow with
  | nil => exact start
  | cons move moves ih =>
    apply ih
    · exact (steps settings flow move).owned howned
    · exact turn (flow.turn settings move) List.mem_cons_self howned start
    · exact fun later hlater => turn later (List.mem_cons_of_mem _ hlater)

end Flow

end DonationFlow
