import DonationFlow.Proofs.Flow.Editing
import DonationFlow.Proofs.Onramp
import Mathlib.Algebra.BigOperators.Group.Finset.Basic

/-!
# What a watch finds, and what it does then

A watch that nobody cancels takes its baseline once and reads on until a read is above
it, an interval after each read that is not.  The watch of a session then turns the
intent to the settlement currency, which leaves an intent that is there already, and
whatever is under way for it.  Main statement: `finds_first_increase_and_turns_intent`.
-/

namespace DonationFlow

/-- What the reads of a watch find, the baseline first, and how long each takes. -/
structure Readings where
  outcome : Nat → Except FlowError Word
  span : Nat → Nat

namespace Readings

/-- The read of that number comes back with more than the baseline. -/
def Exceeds (readings : Readings) (baseline : Word) (number : Nat) : Prop :=
  ∃ balance, readings.outcome number = .ok balance ∧ baseline < balance

/-- When the read of that number comes back, if an interval lies before each but the first. -/
def doneAt (readings : Readings) (start interval number : Nat) : Nat :=
  start + ∑ read ∈ Finset.range (number + 1), readings.span read + number * interval

variable (readings : Readings) (start interval : Nat)

theorem doneAt_zero : readings.doneAt start interval 0 = start + readings.span 0 := by
  simp [doneAt]

theorem doneAt_succ (number : Nat) :
    readings.doneAt start interval (number + 1) =
      readings.doneAt start interval number + interval + readings.span (number + 1) := by
  rw [doneAt, doneAt, Finset.sum_range_succ, Nat.succ_mul]
  omega

end Readings

namespace Watch

/-- The watch after its baseline and up to `count` more reads, and the time.  Its alarm
wakes it when it is due, and a watch without alarm reads no more. -/
def follow (watch : Watch) (start : Nat) (readings : Readings) : Nat → Watch × Nat
  | 0 =>
    let now := start + readings.span 0
    (watch.landed now (readings.outcome 0), now)
  | count + 1 =>
    let (watch, now) := watch.follow start readings count
    match watch.due? with
    | some due =>
      let later := due + readings.span (count + 1)
      ((watch.wake due).landed later (readings.outcome (count + 1)), later)
    | none => (watch, now)

/-- How a watch that nobody cancels comes to its end: with the error of its baseline
read, or with the first later read above the baseline, and not before. -/
structure FindsFunds (owner : Address) (interval start : Nat) (readings : Readings) : Prop where
  failed : ∀ error, readings.outcome 0 = .error error → ∀ count,
    follow { owner, interval } start readings count =
      ({ owner, interval, phase := .ended (.failed error) }, readings.doneAt start interval 0)
  waits : ∀ baseline, readings.outcome 0 = .ok baseline → ∀ count,
    (∀ number, 0 < number → number ≤ count → ¬readings.Exceeds baseline number) →
    let now := readings.doneAt start interval count
    follow { owner, interval } start readings count =
      ({ owner, interval, phase := .sleeping baseline (now + interval) }, now)
  funded : ∀ baseline balance first, readings.outcome 0 = .ok baseline → 0 < first →
    readings.outcome first = .ok balance → baseline < balance →
    (∀ number, 0 < number → number < first → ¬readings.Exceeds baseline number) →
    ∃ increase : Word, 0 < increase.toNat ∧
      balance.toNat = baseline.toNat + increase.toNat ∧
      ∀ count, first ≤ count → follow { owner, interval } start readings count =
        ({ owner, interval, phase := .ended (.funded increase) },
          readings.doneAt start interval first)

variable {owner : Address} {interval start : Nat} {readings : Readings} {baseline : Word}

/-- A sleeping watch is awake from the time it is due. -/
theorem isReading_wake_iff {watch : Watch} {due : Nat} (h : watch.phase = .sleeping baseline due)
    (now : Nat) : (watch.wake now).isReading = true ↔ due ≤ now := by
  simp only [wake, h]
  split
  · exact iff_of_true rfl ‹_›
  · rename_i hearly
    refine iff_of_false ?_ hearly
    rw [isReading, h]
    exact Bool.false_ne_true

/-- What a poll that does not exceed the baseline leaves. -/
theorem landed_polling_of_not_exceeds {number now : Nat}
    (h : ¬readings.Exceeds baseline number) :
    Watch.landed { owner, interval, phase := .polling baseline } now (readings.outcome number) =
      { owner, interval, phase := .sleeping baseline (now + interval) } := by
  cases houtcome : readings.outcome number with
  | error error => rfl
  | ok balance =>
    have hnot : ¬baseline < balance := fun hexceeds => h ⟨balance, houtcome, hexceeds⟩
    simp only [landed, if_neg hnot]
    rfl

/-- A watch that sleeps makes its next read an interval after the last. -/
theorem follow_succ_of_sleeping {count : Nat}
    (h : follow { owner, interval } start readings count =
      ({ owner, interval, phase :=
          .sleeping baseline (readings.doneAt start interval count + interval) },
        readings.doneAt start interval count)) :
    follow { owner, interval } start readings (count + 1) =
      (Watch.landed { owner, interval, phase := .polling baseline }
          (readings.doneAt start interval (count + 1)) (readings.outcome (count + 1)),
        readings.doneAt start interval (count + 1)) := by
  rw [follow, h, readings.doneAt_succ]
  simp [due?, wake]

/-- A watch that ended stays as it is. -/
theorem follow_of_ended {watch ended : Watch} {how : WatchEnd} {first time : Nat}
    (hended : ended.phase = .ended how) (h : watch.follow start readings first = (ended, time))
    {count : Nat} (hcount : first ≤ count) :
    watch.follow start readings count = (ended, time) := by
  have hnone : ended.due? = none := by rw [due?, hended]
  induction count, hcount using Nat.le_induction with
  | base => exact h
  | succ count _ ih => simp only [follow, ih, hnone]

theorem follow_of_not_exceeds (owner : Address) (interval start : Nat)
    (hbaseline : readings.outcome 0 = .ok baseline) (count : Nat)
    (h : ∀ number, 0 < number → number ≤ count → ¬readings.Exceeds baseline number) :
    follow { owner, interval } start readings count =
      ({ owner, interval, phase :=
          .sleeping baseline (readings.doneAt start interval count + interval) },
        readings.doneAt start interval count) := by
  induction count with
  | zero => simp [follow, hbaseline, landed, rest, readings.doneAt_zero]
  | succ count ih =>
    have hearlier := ih fun number hpos hle => h number hpos (Nat.le_succ_of_le hle)
    rw [follow_succ_of_sleeping hearlier,
      landed_polling_of_not_exceeds (h (count + 1) (Nat.succ_pos count) le_rfl)]

theorem finds_funds (owner : Address) (interval start : Nat) (readings : Readings) :
    FindsFunds owner interval start readings where
  failed := by
    intro error herror count
    refine follow_of_ended rfl ?_ (Nat.zero_le count)
    simp [follow, herror, landed, readings.doneAt_zero]
  waits := fun _ hbaseline count => follow_of_not_exceeds owner interval start hbaseline count
  funded := by
    intro baseline balance first hbaseline hfirst hbalance hexceeds hnone
    refine ⟨balance.monus baseline, ?_, ?_, ?_⟩
    · rw [Word.toNat_monus]
      exact Nat.sub_pos_of_lt hexceeds
    · rw [Word.toNat_monus, Nat.add_sub_cancel' (Nat.le_of_lt hexceeds)]
    · intro count hcount
      refine follow_of_ended rfl ?_ hcount
      obtain ⟨before, rfl⟩ := Nat.exists_eq_succ_of_ne_zero hfirst.ne'
      have hsleeps := follow_of_not_exceeds owner interval start hbaseline before
        fun number hpos hle => hnone number hpos (Nat.lt_succ_of_le hle)
      rw [follow_succ_of_sleeping hsleeps, hbalance]
      simp [landed, hexceeds]

end Watch

namespace OnrampSession

variable {session : OnrampSession} {move : Move} {index : Nat}

/-- A poll of that watch comes back with more than its baseline. -/
def FundsArrive (session : OnrampSession) (move : Move) (index : Nat) : Prop :=
  ∃ now balance watch baseline, move = .landed index now (.ok balance) ∧
    session.watches[index]? = some watch ∧ watch.phase = .polling baseline ∧ baseline < balance

/-- A read that was under way finds funds exactly if it exceeds the baseline. -/
theorem isSome_funded?_landed_iff {watch : Watch} {now : Nat} {outcome : Except FlowError Word} :
    (watch.isReading && (watch.landed now outcome).funded?.isSome) = true ↔
      ∃ balance baseline, outcome = .ok balance ∧ watch.phase = .polling baseline ∧
        baseline < balance := by
  obtain ⟨owner, interval, phase, cancelled⟩ := watch
  cases phase with
  | sleeping | ended => simp [Watch.isReading]
  | baseline =>
    cases outcome <;> cases cancelled <;>
      simp [Watch.landed, Watch.rest, Watch.isReading, Watch.funded?]
  | polling baseline =>
    cases outcome with
    | error error => cases cancelled <;> simp [Watch.landed, Watch.rest, Watch.funded?]
    | ok balance =>
      by_cases hexceeds : baseline < balance
      · simp [Watch.landed, Watch.isReading, Watch.funded?, hexceeds]
      · cases cancelled <;> simp [Watch.landed, Watch.rest, Watch.funded?, hexceeds]

theorem turns_iff_fundsArrive :
    (session.step move).2 = some index ↔ session.FundsArrive move index := by
  cases move with
  | start account interval =>
    refine iff_of_false ?_ fun ⟨_, _, _, _, hmove, _⟩ => nomatch hmove
    cases account <;> exact nofun
  | cancel | wake => exact iff_of_false nofun fun ⟨_, _, _, _, hmove, _⟩ => nomatch hmove
  | landed other now outcome =>
    cases hwatch : session.watches[other]? with
    | none =>
      refine iff_of_false (by simp [step, landed, hwatch]) ?_
      rintro ⟨_, _, watch, _, ⟨⟩, hother, -⟩
      cases hwatch.symm.trans hother
    | some watch =>
      have hturns : (session.step (.landed other now outcome)).2 = some index ↔
          (watch.isReading && (watch.landed now outcome).funded?.isSome) = true ∧
            other = index := by
        simp [step, landed, hwatch]
      rw [hturns, isSome_funded?_landed_iff]
      constructor
      · rintro ⟨⟨balance, baseline, rfl, hphase, hexceeds⟩, rfl⟩
        exact ⟨now, balance, watch, baseline, rfl, hwatch, hphase, hexceeds⟩
      · rintro ⟨_, balance, found, baseline, ⟨⟩, hfound, hphase, hexceeds⟩
        obtain rfl := Option.some.inj (hwatch.symm.trans hfound)
        exact ⟨⟨balance, baseline, rfl, hphase, hexceeds⟩, rfl⟩

/-- A watch whose funds arrive ends with them. -/
theorem FundsArrive.ends (h : session.FundsArrive move index) :
    ∃ watch increase, (session.step move).1.watches[index]? = some watch ∧
      watch.phase = .ended (.funded increase) := by
  obtain ⟨now, balance, watch, baseline, rfl, hwatch, hphase, hexceeds⟩ := h
  refine ⟨watch.landed now (.ok balance), balance.monus baseline, ?_, ?_⟩
  · simp [step, landed, hwatch, watches_modify]
  · simp [Watch.landed, hphase, hexceeds]

end OnrampSession

namespace Flow

variable {flow : Flow}

/-- What a move of a session leads to: the watch that has found funds turns the intent. -/
def afterWatch (flow : Flow) (account : Option Address) (session : OnrampSession)
    (move : OnrampSession.Move) : Flow × List Effect :=
  match (session.step move).2 with
  | some _ =>
    let (flow, _, effects) := flow.useFunds account
    (flow, effects)
  | none => (flow, [])

/-- The intent as card funding turns it: its action is left. -/
def fundedIntent (flow : Flow) (currency : Token) : Intent :=
  Intent.blank flow.desk.intent.action Chain.settlement currency

/-- The edit that card funding makes leads to the settlement currency. -/
theorem exists_target_of_useSettlementCurrency {intent : Intent} (hlisted : intent.Listed) :
    ∃ edit currency, Edit.useSettlementCurrency = .ok edit ∧ Watch.currency? = some currency ∧
      edit.amount = none ∧
      edit.target intent = .ok (intent.action, Chain.settlement, currency) := by
  have hsettlement : Chain.settlement ∈ Chain.all := by decide
  obtain ⟨currency, hcurrency⟩ := Token.exists_settlementCurrency hsettlement
  have hmem := (Token.settlementCurrency?_eq_some_iff.1 hcurrency).1
  have huse : Edit.useSettlementCurrency =
      .ok { chainId := some Chain.settlementId, token := some currency.symbol } := by
    rw [Edit.useSettlementCurrency, show Token.settlementCurrency? Chain.settlementId =
      some currency from hcurrency]
  refine ⟨_, currency, huse, hcurrency, rfl, ?_⟩
  rw [Edit.target_eq_ok_iff hlisted]
  exact ⟨rfl, .named rfl hsettlement, .named rfl hmem (Text.sameLetters_self _)⟩

/-- Card funding leaves the flow of an intent that is there already; any other starts
over there. -/
theorem useFunds_cases (hlisted : flow.desk.intent.Listed) (account : Option Address) :
    ∃ currency, Watch.currency? = some currency ∧
      ((flow.fundedIntent currency).Akin flow.desk.intent ∧
          flow.useFunds account = (flow, .ok flow.desk.intent, []) ∨
        ¬(flow.fundedIntent currency).Akin flow.desk.intent ∧
          flow.useFunds account =
            ({ flow with desk := flow.desk.reset (flow.fundedIntent currency) },
              .ok (flow.fundedIntent currency),
              (account.map (Effect.reread · (flow.fundedIntent currency))).toList)) := by
  obtain ⟨edit, currency, huse, hcurrency, hamount, htarget⟩ :=
    exists_target_of_useSettlementCurrency hlisted
  refine ⟨currency, hcurrency, ?_⟩
  cases hedit : flow.desk.edit edit with
  | error error => cases (Desk.edit_eq_error_iff.1 hedit).symm.trans htarget
  | ok edited =>
    obtain ⟨edited, startsOver⟩ := edited
    have huses : flow.useFunds account = flow.edit account edit := by rw [useFunds, huse]
    obtain ⟨_, _, _, hled, hways⟩ := Desk.edit_cases hlisted hedit
    obtain ⟨⟩ := Except.ok.inj (htarget.symm.trans hled)
    obtain ⟨rfl, hother, rfl⟩ | ⟨rfl, hsame, rfl⟩ := hways
    · refine Or.inr ⟨hother, ?_⟩
      rw [huses, Flow.edit, hedit, hamount]
      have hintent : ∀ intent, (flow.desk.reset intent).intent = intent :=
        fun intent => by rw [Desk.reset_eq]
      cases account <;> simp [Desk.typeIf, fundedIntent, hintent]
    · refine Or.inl ⟨hsame, ?_⟩
      rw [huses, Flow.edit, hedit, hamount]
      cases account <;> rfl

/-- A watch that nobody cancels ends with the error of its baseline read, or finds funds
with its first later poll that is above the baseline: each poll is an interval after the
read before it, and a poll that fails or is not above leaves the baseline.  Whatever the
state of flow and session, the intent is turned exactly by a poll of a watch of the
session that is above the baseline of the watch.  Then it is for the same action and for
the settlement currency on the settlement chain; and if it was before, everything is
left. -/
theorem finds_first_increase_and_turns_intent (settings : Settings) (moves : List Move)
    (account : Option Address) (sessionMoves : List OnrampSession.Move)
    (move : OnrampSession.Move) :
    let flow := ({} : Flow).reached settings moves
    let session := ({} : OnrampSession).reached sessionMoves
    (∀ owner interval start readings, Watch.FindsFunds owner interval start readings) ∧
    (∀ (watch : Watch) (baseline : Word) (due now : Nat),
      watch.phase = .sleeping baseline due → ((watch.wake now).isReading = true ↔ due ≤ now)) ∧
    ((∀ index, ¬session.FundsArrive move index) →
      flow.afterWatch account session move = (flow, [])) ∧
    ∀ index, session.FundsArrive move index →
      (∃ watch increase, (session.step move).1.watches[index]? = some watch ∧
        watch.phase = .ended (.funded increase)) ∧
      ∃ currency, Watch.currency? = some currency ∧
        let turned := flow.fundedIntent currency
        let after := flow.afterWatch account session move
        after.1.desk.intent.Akin turned ∧
        (flow.desk.intent.Akin turned → after = (flow, [])) ∧
        (¬flow.desk.intent.Akin turned →
          after = ({ flow with desk := flow.desk.reset turned },
            (account.map (Effect.reread · turned)).toList)) := by
  intro flow session
  have hlisted : flow.desk.intent.Listed := listed_reached settings moves
  refine ⟨Watch.finds_funds, fun _ _ _ now hsleeps => Watch.isReading_wake_iff hsleeps now, ?_, ?_⟩
  · intro hnone
    cases hturns : (session.step move).2 with
    | none => rw [afterWatch, hturns]
    | some index => exact absurd (OnrampSession.turns_iff_fundsArrive.1 hturns) (hnone index)
  · intro index harrive
    have hafter : flow.afterWatch account session move =
        ((flow.useFunds account).1, (flow.useFunds account).2.2) := by
      rw [afterWatch, OnrampSession.turns_iff_fundsArrive.2 harrive]
    obtain ⟨currency, hcurrency, hways⟩ := useFunds_cases hlisted account
    refine ⟨harrive.ends, currency, hcurrency, ?_⟩
    dsimp only
    obtain ⟨hsame, huses⟩ | ⟨hother, huses⟩ := hways
    · rw [hafter, huses]
      exact ⟨hsame.symm, fun _ => rfl, fun hother => absurd hsame.symm hother⟩
    · rw [hafter, huses]
      refine ⟨?_, fun hsame => absurd hsame.symm hother, fun _ => rfl⟩
      show (flow.desk.reset _).intent.Akin _
      rw [Desk.reset_eq]
      exact Intent.Akin.refl _

/-- The second poll fails, and the fourth finds funds. -/
def slowFunds : Readings where
  outcome
    | 2 => .error .notConnected
    | 4 => .ok Word.top
    | _ => .ok Word.zero
  span _ := 0

/-- A watch polls four times for its funds.  A poll of a session turns an execution of
another token in flight, and leaves one of the settlement currency. -/
theorem finds_first_increase_and_turns_intent_of_slowFunds :
    let polled := [.start (some default) 1, .landed 0 0 (.ok Word.zero), .wake 0 1]
    let session := ({} : OnrampSession).reached polled
    let move : OnrampSession.Move := .landed 0 1 (.ok Word.top)
    let elsewhere := ({} : Flow).reached trialSettings acceptedRun
    let there := ({} : Flow).reached trialSettings (raceRun ++ [.submitted 1 (.ok trialHash)])
    ((Watch.follow { owner := default, interval := 5 } 0 slowFunds 3).1.phase =
        .sleeping Word.zero 20 ∧
      Watch.follow { owner := default, interval := 5 } 0 slowFunds 4 =
        ({ owner := default, interval := 5, phase := .ended (.funded Word.top) }, 20)) ∧
    session.FundsArrive move 0 ∧
    (elsewhere.desk.inFlight ≠ none ∧
      (elsewhere.afterWatch none session move).1.desk.inFlight = none ∧
      (elsewhere.afterWatch none session move).1.desk.intent.chain = Chain.settlement) ∧
    there.desk.inFlight ≠ none ∧ there.afterWatch none session move = (there, []) := by
  intro polled session move elsewhere there
  have harrive : session.FundsArrive move 0 :=
    ⟨1, Word.top, { owner := default, interval := 1, phase := .polling Word.zero }, Word.zero, rfl,
      by decide +kernel, rfl, by decide +kernel⟩
  have hdefault : Watch.currency? = some Intent.default.token := by decide +kernel
  have hnone : ∀ number, 0 < number → number < 4 → ¬slowFunds.Exceeds Word.zero number := by
    rintro number hpos hlt ⟨balance, houtcome, hexceeds⟩
    obtain rfl | rfl | rfl : number = 1 ∨ number = 2 ∨ number = 3 := by omega
    · cases houtcome
      exact absurd hexceeds (by decide)
    · cases houtcome
    · cases houtcome
      exact absurd hexceeds (by decide)
  obtain ⟨hfinds, -, -, hturned⟩ :=
    finds_first_increase_and_turns_intent trialSettings acceptedRun none polled move
  obtain ⟨-, -, -, hleft⟩ := finds_first_increase_and_turns_intent trialSettings
    (raceRun ++ [.submitted 1 (.ok trialHash)]) none polled move
  have h := hfinds default 5 0 slowFunds
  refine ⟨⟨?_, ?_⟩, harrive, ⟨by decide +kernel, ?_⟩, by decide +kernel, ?_⟩
  · rw [h.waits Word.zero rfl 3 fun number hpos hle => hnone number hpos (Nat.lt_succ_of_le hle)]
    simp [Readings.doneAt, slowFunds]
  · obtain ⟨increase, -, hincrease, hends⟩ :=
      h.funded Word.zero Word.top 4 rfl (by decide) rfl (by decide +kernel) hnone
    rw [Word.toNat_zero, Nat.zero_add] at hincrease
    rw [hends 4 le_rfl, ← Word.ext hincrease]
    simp [Readings.doneAt, slowFunds]
  · obtain ⟨-, currency, hcurrency, hakin, -, hafter⟩ := hturned 0 harrive
    obtain rfl : Intent.default.token = currency :=
      Option.some.inj (hdefault.symm.trans hcurrency)
    have hother : ¬elsewhere.desk.intent.Akin (elsewhere.fundedIntent Intent.default.token) :=
      fun hsame => absurd hsame.token (by decide +kernel)
    exact ⟨by rw [hafter hother, Desk.reset_eq], hakin.chain⟩
  · obtain ⟨-, currency, hcurrency, -, hthere, -⟩ := hleft 0 harrive
    obtain rfl : Intent.default.token = currency :=
      Option.some.inj (hdefault.symm.trans hcurrency)
    exact hthere ⟨rfl, by decide +kernel, by decide +kernel⟩

end Flow

end DonationFlow
