import DonationFlow.Proofs.Desk.Telling
import DonationFlow.Proofs.Flow.Step

/-!
# The history of a run

A run is looked at turn by turn: each turn keeps the flow that it found, the
move, and what came of it.  Main statement: `history_induction`, by which a
relation between the turns so far and the flow they led to is shown one turn at
a time.
-/

namespace DonationFlow

/-- One move of a run, with the flow it found and what it led to. -/
structure Turn where
  before : Flow
  move : Move
  after : Flow
  effects : List Effect

namespace Turn

/-- What the turn added to the log. -/
def events (turn : Turn) : List Event :=
  turn.after.desk.log.drop turn.before.desk.log.length

/-- The notices that the turn told. -/
def notices (turn : Turn) : List Notice := turn.events.filterMap Event.notice?

/-- The attempt of a submission that the turn accepted: it passed the refusals
and there is a plan for it. -/
def accepted? (settings : Settings) (turn : Turn) : Option Attempt :=
  match turn.move with
  | .submit cache account =>
    match turn.before.desk.submit settings cache account with
    | (_, .ok (attempt, _)) => some attempt
    | (_, .error _) => none
  | _ => none

/-- The hash that the executor gave in the turn, with the call it was given
to. -/
def given? (turn : Turn) : Option (Nat × TxHash) :=
  match turn.move with
  | .submitted id (.ok hash) =>
    if (turn.before.find? id).any (·.stage.awaits turn.move) then some (id, hash) else none
  | _ => none

/-- The turn is an edit that starts over. -/
def StartsOver (turn : Turn) : Prop :=
  ∃ account edit desk, turn.move = .edit account edit ∧
    turn.before.desk.edit edit = .ok (desk, true)

end Turn

namespace Flow

def turn (settings : Settings) (flow : Flow) (move : Move) : Turn where
  before := flow
  move := move
  after := (flow.step settings move).1
  effects := (flow.step settings move).2

/-- The turns of a run, in order. -/
def history (settings : Settings) (flow : Flow) : List Move → List Turn
  | [] => []
  | move :: moves =>
    flow.turn settings move :: (flow.step settings move).1.history settings moves

/-- The flow that a run leads to. -/
def reached (settings : Settings) (flow : Flow) (moves : List Move) : Flow :=
  (flow.run settings moves).1

/-- Plain settings, for runs that are written out. -/
def trialSettings : Settings where
  campaign := Word.zero
  contracts := { settlement := default }

/-- The same with a bridge contract on Ethereum. -/
def bridgeSettings : Settings :=
  { trialSettings with
    contracts := { settlement := default, bridges := ({} : Table Nat Address).put 1 default } }

/-- A hash, for runs that are written out. -/
def trialHash : TxHash := ⟨1, by decide⟩

/-- What is seen to go well has a value. -/
theorem exists_of_isOk {α : Type} {result : Except FlowError α} (h : result.isOk = true) :
    ∃ value, result = .ok value := by
  cases result with
  | error error => cases h
  | ok value => exact ⟨value, rfl⟩

variable {settings : Settings} {flow : Flow}

@[simp] theorem reached_cons (move : Move) (moves : List Move) :
    flow.reached settings (move :: moves) =
      (flow.step settings move).1.reached settings moves := rfl

theorem reached_append (early late : List Move) :
    flow.reached settings (early ++ late) =
      (flow.reached settings early).reached settings late := by
  induction early generalizing flow with
  | nil => rfl
  | cons move early ih => exact ih

theorem history_append (early late : List Move) :
    flow.history settings (early ++ late) =
      flow.history settings early ++ (flow.reached settings early).history settings late := by
  induction early generalizing flow with
  | nil => rfl
  | cons move early ih => exact congrArg (flow.turn settings move :: ·) ih

/-- The turns of a run have its effects, in its order. -/
theorem effects_history (moves : List Move) :
    (flow.history settings moves).flatMap (·.effects) = (flow.run settings moves).2 := by
  induction moves generalizing flow with
  | nil => rfl
  | cons move moves ih =>
    rw [history, List.flatMap_cons, ih]
    rfl

/-- What holds before the first turn and is kept by each turn holds of every
run. -/
theorem history_induction {P : List Turn → Flow → Prop}
    (turn : ∀ past flow move, P past flow →
      P (past ++ [flow.turn settings move]) (flow.step settings move).1)
    (start : P [] flow) (moves : List Move) :
    P (flow.history settings moves) (flow.reached settings moves) := by
  suffices hfrom : ∀ past flow, P past flow →
      P (past ++ flow.history settings moves) (flow.reached settings moves) from hfrom [] flow start
  clear start
  induction moves with
  | nil =>
    intro past flow h
    rw [history, List.append_nil]
    exact h
  | cons move moves ih =>
    intro past flow h
    rw [history, List.append_cons]
    exact ih _ _ (turn past flow move h)

/-- What each step keeps holds of every flow that a run reaches. -/
theorem reached_induction {P : Flow → Prop}
    (step : ∀ flow move, P flow → P (flow.step settings move).1) (start : P flow)
    (moves : List Move) : P (flow.reached settings moves) := by
  induction moves generalizing flow with
  | nil => exact start
  | cons move moves ih => exact ih (step flow move start)

/-- Each turn of a run was made at a flow that the run reached. -/
theorem exists_of_mem_history {moves : List Move} {turn : Turn}
    (h : turn ∈ flow.history settings moves) :
    ∃ early move late, moves = early ++ move :: late ∧
      turn = (flow.reached settings early).turn settings move := by
  induction moves generalizing flow with
  | nil => cases h
  | cons move moves ih =>
    rcases List.mem_cons.1 h with rfl | h
    · exact ⟨[], move, moves, rfl, rfl⟩
    · obtain ⟨early, other, late, rfl, rfl⟩ := ih h
      exact ⟨move :: early, other, late, rfl, rfl⟩

theorem step_of_mem_history {moves : List Move} {turn : Turn}
    (h : turn ∈ flow.history settings moves) :
    turn.move ∈ moves ∧ Step settings turn.before turn.move turn.after turn.effects := by
  obtain ⟨early, move, late, rfl, rfl⟩ := exists_of_mem_history h
  exact ⟨List.mem_append_right _ List.mem_cons_self, steps settings _ move⟩

end Flow

end DonationFlow
