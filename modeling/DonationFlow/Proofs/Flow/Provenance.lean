import DonationFlow.Proofs.Flow.OnceOnly
import DonationFlow.Proofs.Flow.Supersession

/-!
# Where an execution comes from

What is in flight goes back to the submission or the resumption that opened its call:
account and intent are those of that turn, whatever became of the desk since.  Main
statement: `sent_of_applies`.
-/

namespace DonationFlow

/-- A call of that stage has had its execution handed out. -/
def Stage.isUnderExecution : Stage → Bool
  | .executing | .sent _ => true
  | _ => false

/-- The turn is a submission or a resumption, and opens a call of the attempt, with the
account and the intent as they are. -/
structure Turn.Opens (settings : Settings) (turn : Turn) (id : Nat) (attempt : Attempt) : Prop where
  move : ∃ cache, turn.move = .submit cache (some attempt.account) ∨
    turn.move = .tick cache (some attempt.account)
  id_eq : id = turn.before.next
  intent : attempt.intent = turn.before.desk.intent
  plan : Plan.ofIntent attempt.intent settings.campaign settings.contracts = .ok attempt.plan

namespace Flow

/-- The execution of the attempt was accepted as `hash`: one of the turns opened its
call, a later one brought the hash to it, and one handed it out. -/
def Sent (settings : Settings) (turns : List Turn) (hash : TxHash) (attempt : Attempt) : Prop :=
  ∃ opening giving id, [opening, giving].Sublist turns ∧ opening.Opens settings id attempt ∧
    giving.given? = some (id, hash) ∧ ∃ turn ∈ turns, handOutExecution id attempt ∈ turn.effects

/-- One of the turns opened the call, and one handed its execution out if it is under
execution. -/
structure Begun (settings : Settings) (past : List Turn) (call : OpenCall) : Prop where
  opened : ∃ turn ∈ past, turn.Opens settings call.id call.attempt
  handed : call.stage.isUnderExecution = true →
    ∃ turn ∈ past, handOutExecution call.id call.attempt ∈ turn.effects

/-- The calls under way and the execution in flight go back to turns so far. -/
structure Documented (settings : Settings) (past : List Turn) (flow : Flow) : Prop where
  owned : flow.Owned
  calls : ∀ call ∈ flow.calls, Begun settings past call
  flight : ∀ flight, flow.desk.inFlight = some flight → ∃ attempt,
    Sent settings past flight.hash attempt ∧ flight.target = Desk.refreshTarget settings attempt

section Steps

variable {settings : Settings} {past : List Turn} {flow after : Flow} {move : Move}
  {effects : List Effect}

/-- A call under way was so before the step, and only a step that hands its execution
out puts it under execution; or the step opens it. -/
theorem Step.begins (step : Step settings flow move after effects) (h : flow.Numbered)
    {call : OpenCall} (hcall : call ∈ after.calls) :
    (∃ old ∈ flow.calls, old.id = call.id ∧ old.attempt = call.attempt ∧
      (call.stage.isUnderExecution = true → old.stage.isUnderExecution = true ∨
        handOutExecution call.id call.attempt ∈ effects)) ∨
    Turn.Opens settings ⟨flow, move, after, effects⟩ call.id call.attempt ∧
      (call.stage.isUnderExecution = true → handOutExecution call.id call.attempt ∈ effects) := by
  cases step with
  | declined | restarted | retyped | refused | unplannable | passed | reported | missed =>
    exact Or.inl ⟨call, hcall, rfl, rfl, Or.inl⟩
  | @asked cache _ _ _ _ _ hattempt hplan =>
    rcases mem_push_iff.1 hcall with hcall | rfl
    · exact Or.inl ⟨call, hcall, rfl, rfl, Or.inl⟩
    · obtain ⟨-, rfl, hintent⟩ := hattempt
      exact Or.inr ⟨⟨⟨cache, Or.inl rfl⟩, rfl, hintent, hplan⟩, nofun⟩
  | @executed cache _ _ _ _ hattempt hplan =>
    rcases mem_push_iff.1 hcall with hcall | rfl
    · exact Or.inl ⟨call, hcall, rfl, rfl, Or.inl⟩
    · obtain ⟨-, rfl, hintent⟩ := hattempt
      exact Or.inr ⟨⟨⟨cache, Or.inl rfl⟩, rfl, hintent, hplan⟩, fun _ => List.mem_singleton_self _⟩
  | @resumed cache _ _ _ _ _ _ hattempt hplan =>
    rcases mem_push_iff.1 hcall with hcall | rfl
    · exact Or.inl ⟨call, hcall, rfl, rfl, Or.inl⟩
    · obtain ⟨-, rfl, hintent⟩ := hattempt
      exact Or.inr ⟨⟨⟨cache, Or.inr rfl⟩, rfl, hintent, hplan⟩, fun _ => List.mem_singleton_self _⟩
  | approvalAccepted hmoved | approved hmoved =>
    rcases ((h.withDesk _).mem_advance_iff hmoved).1 hcall with rfl | ⟨hcall, -⟩
    · exact Or.inl ⟨_, mem_of_find? hmoved, rfl, rfl, nofun⟩
    · exact Or.inl ⟨call, hcall, rfl, rfl, Or.inl⟩
  | executionAccepted hmoved hstage =>
    rcases ((h.withDesk _).mem_advance_iff hmoved).1 hcall with rfl | ⟨hcall, -⟩
    · exact Or.inl ⟨_, mem_of_find? hmoved, rfl, rfl, fun _ => Or.inl (by rw [hstage]; rfl)⟩
    · exact Or.inl ⟨call, hcall, rfl, rfl, Or.inl⟩
  | claimed hmoved =>
    rcases ((h.withDesk _).mem_advance_iff hmoved).1 hcall with rfl | ⟨hcall, -⟩
    · obtain rfl := id_of_find? hmoved
      exact Or.inl ⟨_, mem_of_find? hmoved, rfl, rfl, fun _ => Or.inr (List.mem_singleton_self _)⟩
    · exact Or.inl ⟨call, hcall, rfl, rfl, Or.inl⟩
  | failed | superseded | settled | abandoned =>
    exact Or.inl ⟨call, (mem_drop_iff.1 hcall).1, rfl, rfl, Or.inl⟩

theorem Begun.mono {call : OpenCall} (h : Begun settings past call) {more : List Turn}
    (hmore : past ⊆ more) : Begun settings more call where
  opened := by
    obtain ⟨turn, hturn, hopens⟩ := h.opened
    exact ⟨turn, hmore hturn, hopens⟩
  handed hstage := by
    obtain ⟨turn, hturn, hhands⟩ := h.handed hstage
    exact ⟨turn, hmore hturn, hhands⟩

theorem Sent.mono {hash : TxHash} {attempt : Attempt} (h : Sent settings past hash attempt)
    {more : List Turn} (hmore : past.Sublist more) : Sent settings more hash attempt := by
  obtain ⟨opening, giving, id, hsublist, hopens, hgiven, turn, hturn, hhands⟩ := h
  exact ⟨opening, giving, id, hsublist.trans hmore, hopens, hgiven, turn, hmore.subset hturn,
    hhands⟩

/-- The executor accepts what the call handed out. -/
theorem Begun.sent {call : OpenCall} (h : Begun settings past call)
    (hstage : call.stage = .executing) {turn : Turn} {hash : TxHash}
    (hgiven : turn.given? = some (call.id, hash)) :
    Sent settings (past ++ [turn]) hash call.attempt := by
  obtain ⟨opening, hopening, hopens⟩ := h.opened
  obtain ⟨handing, hhanding, hhands⟩ := h.handed (by rw [hstage]; rfl)
  have hsublist : [opening, turn].Sublist (past ++ [turn]) :=
    (List.singleton_sublist.2 hopening).append (List.Sublist.refl [turn])
  exact ⟨opening, turn, call.id, hsublist, hopens, hgiven, handing,
    List.mem_append_left _ hhanding, hhands⟩

theorem Documented.snoc (h : Documented settings past flow)
    (step : Step settings flow move after effects) :
    Documented settings (past ++ [⟨flow, move, after, effects⟩]) after where
  owned := step.owned h.owned
  calls := by
    intro call hcall
    have hlast : ⟨flow, move, after, effects⟩ ∈ past ++ [(⟨flow, move, after, effects⟩ : Turn)] :=
      List.mem_append_right _ (List.mem_singleton_self _)
    rcases step.begins h.owned.numbered hcall with ⟨old, hold, hid, hattempt, hstage⟩ |
      ⟨hopens, hhands⟩
    · obtain ⟨hopened, hhanded⟩ := (h.calls old hold).mono (List.subset_append_left past _)
      rw [hid, hattempt] at hopened hhanded
      refine ⟨hopened, fun hexecution => ?_⟩
      rcases hstage hexecution with hbefore | hhands
      · exact hhanded hbefore
      · exact ⟨_, hlast, hhands⟩
    · exact ⟨⟨_, hlast, hopens⟩, fun hexecution => ⟨_, hlast, hhands hexecution⟩⟩
  flight := by
    intro flight hflight
    rcases step.flight hflight with hbefore | ⟨id, call, hcall, hstage, -, rfl, hrecorded⟩
    · obtain ⟨attempt, hsent, htarget⟩ := h.flight flight hbefore
      exact ⟨attempt, hsent.mono (List.sublist_append_left past _), htarget⟩
    · obtain rfl := id_of_find? hcall
      exact ⟨call.attempt, (h.calls call (mem_of_find? hcall)).sent hstage
        (given?_of_submitted hcall (Or.inr hstage)), congrArg InFlight.target hrecorded⟩

end Steps

theorem documented_history (settings : Settings) (moves : List Move) :
    Documented settings (({} : Flow).history settings moves)
      (({} : Flow).reached settings moves) := by
  refine history_induction (fun past flow move h => h.snoc (steps settings flow move)) ?_ moves
  exact
    { owned := owned_start
      calls := fun _ hcall => nomatch hcall
      flight := fun _ hflight => nomatch hflight }

end Flow

end DonationFlow
