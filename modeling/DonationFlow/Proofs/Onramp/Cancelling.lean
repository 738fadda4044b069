import DonationFlow.Proofs.Onramp
import Mathlib.Data.List.Induction

/-!
# What a cancellation answers

A session remembers the watch it started last until that is cancelled, and answers a
cancellation by whether it remembers one.  It is not told that a watch ended on its own,
so that it takes a watch that has found funds, or never got a baseline, for one that
still polls.  Main statement: `cancel_truthful_unless_ended_alone`.
-/

namespace DonationFlow

namespace Watch

/-- The watch goes on: it was neither cancelled nor replaced, and has not ended. -/
structure Polls (watch : Watch) : Prop where
  uncancelled : watch.cancelled = false
  unended : ∀ how, watch.phase ≠ .ended how

/-- Nobody cancelled the watch; it found funds, or could not read its baseline. -/
structure EndedAlone (watch : Watch) : Prop where
  uncancelled : watch.cancelled = false
  ended : (∃ increase, watch.phase = .ended (.funded increase)) ∨
    ∃ error, watch.phase = .ended (.failed error)

/-- Only a watch that was cancelled ends as cancelled. -/
def Honest (watch : Watch) : Prop :=
  watch.phase = .ended .cancelled → watch.cancelled = true

variable {watch : Watch}

theorem honest_rest (watch : Watch) (baseline : Word) (now : Nat) :
    (watch.rest baseline now).Honest := by
  unfold rest
  split
  · rename_i hcancelled
    exact fun _ => hcancelled
  · exact nofun

theorem Honest.landed (h : watch.Honest) (now : Nat) (outcome : Except FlowError Word) :
    (watch.landed now outcome).Honest := by
  unfold Watch.landed
  split
  · exact honest_rest watch _ now
  · exact nofun
  · split
    · exact nofun
    · exact honest_rest watch _ now
  · exact honest_rest watch _ now
  · exact h

theorem Honest.wake (h : watch.Honest) (now : Nat) : (watch.wake now).Honest := by
  unfold Watch.wake
  split
  · split
    · exact nofun
    · exact h
  · exact h

/-- An uncancelled watch polls, or ended on its own. -/
theorem Honest.polls_or_endedAlone (h : watch.Honest) (huncancelled : watch.cancelled = false) :
    watch.Polls ∨ watch.EndedAlone := by
  cases hphase : watch.phase with
  | baseline | sleeping | polling => exact Or.inl ⟨huncancelled, by simp [hphase]⟩
  | ended how =>
    cases how with
    | cancelled => cases huncancelled.symm.trans (h hphase)
    | funded increase => exact Or.inr ⟨huncancelled, Or.inl ⟨increase, hphase⟩⟩
    | failed error => exact Or.inr ⟨huncancelled, Or.inr ⟨error, hphase⟩⟩

theorem Polls.not_endedAlone (h : watch.Polls) : ¬watch.EndedAlone := by
  rintro ⟨-, ⟨increase, hended⟩ | ⟨error, hended⟩⟩ <;> exact h.unended _ hended

end Watch

namespace OnrampSession

/-- The watch to be cancelled next is there and not cancelled yet, and no watch is said
to be cancelled that is not. -/
structure Remembers (session : OnrampSession) : Prop where
  kept : session.Kept
  current : ∀ index, session.current = some index →
    ∃ watch, session.watches[index]? = some watch ∧ watch.cancelled = false
  honest : ∀ (index : Nat) (watch : Watch), session.watches[index]? = some watch → watch.Honest

variable {session : OnrampSession} {moves : List Move}

/-- A watch may change if its cancellation is left and stays honest. -/
theorem Remembers.modify (h : session.Remembers) (index : Nat) {change : Watch → Watch}
    (hkept : (session.modify index change).Kept)
    (hcancelled : ∀ watch, session.watches[index]? = some watch →
      (change watch).cancelled = watch.cancelled)
    (hhonest : ∀ watch, session.watches[index]? = some watch → (change watch).Honest) :
    (session.modify index change).Remembers where
  kept := hkept
  current := by
    intro current hcurrent
    obtain ⟨watch, hwatch, huncancelled⟩ := h.current current hcurrent
    refine ⟨if index = current then change watch else watch, ?_, ?_⟩
    · rw [watches_modify, hwatch, Option.map_some]
    · split
      · rename_i hsame
        subst hsame
        rw [hcancelled watch hwatch, huncancelled]
      · exact huncancelled
  honest := by
    intro other watch hwatch
    rw [watches_modify, Option.map_eq_some_iff] at hwatch
    obtain ⟨old, hold, rfl⟩ := hwatch
    split
    · rename_i hsame
      subst hsame
      exact hhonest old hold
    · exact h.honest other old hold

theorem Remembers.honest_cancelCurrent (h : session.Remembers) {index : Nat} {watch : Watch}
    (hwatch : session.cancelCurrent.watches[index]? = some watch) : watch.Honest :=
  fun _ => h.kept.cancelled_cancelCurrent hwatch

theorem current_cancelCurrent (session : OnrampSession) :
    session.cancelCurrent.current = none := by
  unfold cancelCurrent
  split
  · rfl
  · assumption

theorem Remembers.step (h : session.Remembers) (move : Move) :
    (session.step move).1.Remembers := by
  have hkept := h.kept.step move
  cases move with
  | start account interval =>
    dsimp only [OnrampSession.step] at hkept ⊢
    cases hstart : session.start account interval with
    | error error => exact h
    | ok started =>
      obtain ⟨owner, -, rfl⟩ := start_eq_ok_iff.1 hstart
      rw [hstart] at hkept
      refine ⟨hkept, ?_, ?_⟩
      · rintro _ ⟨⟩
        exact ⟨{ owner, interval }, List.getElem?_concat_length, rfl⟩
      · intro index watch hwatch
        rw [List.getElem?_append] at hwatch
        split at hwatch
        · exact h.honest_cancelCurrent hwatch
        · rw [List.mem_singleton.1 (List.mem_of_getElem? hwatch)]
          exact nofun
  | cancel =>
    refine ⟨hkept, ?_, fun index watch hwatch => h.honest_cancelCurrent hwatch⟩
    intro index hcurrent
    cases (current_cancelCurrent session).symm.trans hcurrent
  | wake index now =>
    exact h.modify index hkept (fun watch _ => watch.cancelled_wake now)
      (fun watch hwatch => (h.honest index watch hwatch).wake now)
  | landed index now outcome =>
    dsimp only [OnrampSession.step, OnrampSession.landed] at hkept ⊢
    cases hwatch : session.watches[index]? with
    | none => exact h
    | some watch =>
      rw [hwatch] at hkept
      refine h.modify index hkept ?_ ?_ <;> intro old hold <;>
        obtain rfl := Option.some.inj (hwatch.symm.trans hold)
      · exact watch.cancelled_landed now outcome
      · exact (h.honest index watch hwatch).landed now outcome

theorem remembers_start : ({} : OnrampSession).Remembers :=
  ⟨kept_start, fun _ hcurrent => (nomatch hcurrent), fun _ _ hwatch => (nomatch hwatch)⟩

theorem Remembers.reached (h : session.Remembers) (moves : List Move) :
    (session.reached moves).Remembers := by
  induction moves generalizing session with
  | nil => exact h
  | cons move moves ih => exact ih (h.step move)

/-- A cancellation is answered by whether there is a watch that nobody has cancelled. -/
theorem Remembers.cancel_iff (h : session.Remembers) :
    session.cancel.2 = true ↔ ∃ watch ∈ session.watches, watch.cancelled = false := by
  rw [cancel, Option.isSome_iff_exists]
  constructor
  · rintro ⟨index, hcurrent⟩
    obtain ⟨watch, hwatch, huncancelled⟩ := h.current index hcurrent
    exact ⟨watch, List.mem_of_getElem? hwatch, huncancelled⟩
  · rintro ⟨watch, hmem, huncancelled⟩
    obtain ⟨index, hwatch⟩ := List.mem_iff_getElem?.1 hmem
    exact ⟨index, h.kept.sole index watch hwatch huncancelled⟩

theorem Remembers.eq_of_uncancelled (h : session.Remembers) {left right : Watch}
    (hleft : left ∈ session.watches) (hright : right ∈ session.watches)
    (hleftLive : left.cancelled = false) (hrightLive : right.cancelled = false) :
    left = right := by
  obtain ⟨leftIndex, hleft⟩ := List.mem_iff_getElem?.1 hleft
  obtain ⟨rightIndex, hright⟩ := List.mem_iff_getElem?.1 hright
  have hsame := (h.kept.sole leftIndex left hleft hleftLive).symm.trans
    (h.kept.sole rightIndex right hright hrightLive)
  rw [Option.some.inj hsame, hright] at hleft
  exact (Option.some.inj hleft).symm

/-! ## The last start -/

/-- A watch was started, and nothing was cancelled since. -/
def Stands (moves : List Move) : Prop :=
  ∃ early owner interval late, moves = early ++ .start (some owner) interval :: late ∧
    .cancel ∉ late

theorem stands_snoc {move : Move} :
    Stands (moves ++ [move]) ↔
      (∃ owner interval, move = .start (some owner) interval) ∨ move ≠ .cancel ∧ Stands moves := by
  constructor
  · rintro ⟨early, owner, interval, late, heq, hlate⟩
    rcases List.eq_nil_or_concat late with rfl | ⟨late, last, rfl⟩
    · obtain ⟨-, hmove⟩ := List.append_inj' heq rfl
      exact Or.inl ⟨owner, interval, List.singleton_inj.1 hmove⟩
    · rw [List.concat_eq_append] at heq hlate
      rw [← List.cons_append, ← List.append_assoc] at heq
      obtain ⟨hmoves, hmove⟩ := List.append_inj' heq rfl
      obtain rfl := List.singleton_inj.1 hmove
      rw [List.mem_append, List.mem_singleton, not_or] at hlate
      exact Or.inr ⟨fun hcancel => hlate.2 hcancel.symm, early, owner, interval, late, hmoves,
        hlate.1⟩
  · rintro (⟨owner, interval, rfl⟩ | ⟨hmove, early, owner, interval, late, rfl, hlate⟩)
    · exact ⟨moves, owner, interval, [], rfl, List.not_mem_nil⟩
    · refine ⟨early, owner, interval, late ++ [move], ?_, ?_⟩
      · rw [List.append_assoc, List.cons_append]
      · rw [List.mem_append, List.mem_singleton, not_or]
        exact ⟨hlate, fun hcancel => hmove hcancel.symm⟩

/-- A start makes the session remember a watch, and a cancellation forget it. -/
theorem isSome_current_step (session : OnrampSession) (move : Move) :
    (session.step move).1.current.isSome = true ↔
      (∃ owner interval, move = .start (some owner) interval) ∨
        move ≠ .cancel ∧ session.current.isSome = true := by
  cases move with
  | start account interval => cases account <;> simp [step, start]
  | cancel => simp [step, cancel, current_cancelCurrent]
  | wake index now => simp [step, modify]
  | landed index now outcome =>
    dsimp only [step, landed]
    cases session.watches[index]? <;> simp [modify]

theorem reached_snoc (session : OnrampSession) (moves : List Move) (move : Move) :
    session.reached (moves ++ [move]) = ((session.reached moves).step move).1 := by
  rw [reached, List.foldl_append]
  rfl

theorem isSome_current_reached (moves : List Move) :
    (({} : OnrampSession).reached moves).current.isSome = true ↔ Stands moves := by
  induction moves using List.reverseRecOn with
  | nil =>
    refine iff_of_false Bool.false_ne_true ?_
    rintro ⟨early, owner, interval, late, heq, -⟩
    exact absurd heq.symm (List.append_ne_nil_of_right_ne_nil _ (List.cons_ne_nil _ _))
  | append_singleton moves move ih => rw [reached_snoc, isSome_current_step, stands_snoc, ih]

/-- Without a start nothing is remembered anew. -/
theorem current_reached_eq_none (h : session.current = none)
    (hmoves : ∀ owner interval, .start (some owner) interval ∉ moves) :
    (session.reached moves).current = none := by
  induction moves generalizing session with
  | nil => exact h
  | cons move moves ih =>
    apply ih
    · cases hcurrent : (session.step move).1.current with
      | none => rfl
      | some index =>
        have hsome : (session.step move).1.current.isSome = true := by rw [hcurrent]; rfl
        rcases (isSome_current_step session move).1 hsome with ⟨owner, interval, rfl⟩ | ⟨-, hbefore⟩
        · exact absurd List.mem_cons_self (hmoves owner interval)
        · rw [h] at hbefore
          cases hbefore
    · exact fun owner interval hmem => hmoves owner interval (List.mem_cons_of_mem _ hmem)

/-- A cancellation answers whether a watch was started and nothing was cancelled since,
and a second one without a start in between answers no.  That tells whether a watch
polls, unless the one started last ended on its own: then the answer is yes although
none polls. -/
theorem cancel_truthful_unless_ended_alone (moves : List Move) :
    let session := ({} : OnrampSession).reached moves
    (session.cancel.2 = true ↔ Stands moves) ∧
    (∀ later, (∀ owner interval, .start (some owner) interval ∉ later) →
      (session.cancel.1.reached later).cancel.2 = false) ∧
    ((∀ watch ∈ session.watches, ¬watch.EndedAlone) →
      (session.cancel.2 = true ↔ ∃ watch ∈ session.watches, watch.Polls)) ∧
    ((∃ watch ∈ session.watches, watch.EndedAlone) →
      session.cancel.2 = true ∧ ∀ watch ∈ session.watches, ¬watch.Polls) := by
  intro session
  have h : session.Remembers := remembers_start.reached moves
  refine ⟨isSome_current_reached moves, ?_, ?_, ?_⟩
  · intro later hlater
    have hforgets : (session.cancel.1.reached later).current = none :=
      current_reached_eq_none (current_cancelCurrent session) hlater
    exact Option.isSome_eq_false_iff.2 (Option.isNone_iff_eq_none.2 hforgets)
  · intro hnone
    rw [h.cancel_iff]
    constructor
    · rintro ⟨watch, hwatch, huncancelled⟩
      obtain ⟨index, hindex⟩ := List.mem_iff_getElem?.1 hwatch
      have hpolls := ((h.honest index watch hindex).polls_or_endedAlone huncancelled).resolve_right
        (hnone watch hwatch)
      exact ⟨watch, hwatch, hpolls⟩
    · rintro ⟨watch, hwatch, hpolls⟩
      exact ⟨watch, hwatch, hpolls.uncancelled⟩
  · rintro ⟨ended, hended, halone⟩
    refine ⟨h.cancel_iff.2 ⟨ended, hended, halone.uncancelled⟩, ?_⟩
    intro watch hwatch hpolls
    obtain rfl := h.eq_of_uncancelled hwatch hended hpolls.uncancelled halone.uncancelled
    exact hpolls.not_endedAlone halone

/-- A watch finds funds at its first poll. -/
def fundedRun : List Move :=
  [.start (some default) 1, .landed 0 0 (.ok Word.zero), .wake 0 1, .landed 0 1 (.ok Word.top)]

theorem cancel_truthful_unless_ended_alone_of_fundedRun :
    let asleep := ({} : OnrampSession).reached (fundedRun.take 2)
    let funded := ({} : OnrampSession).reached fundedRun
    (asleep.cancel.2 = true ∧ ∃ watch ∈ asleep.watches, watch.Polls) ∧
      (∃ watch ∈ funded.watches, watch.EndedAlone) ∧
      (funded.cancel.2 = true ∧ ∀ watch ∈ funded.watches, ¬watch.Polls) ∧
      (funded.cancel.1.reached [.cancel]).cancel.2 = false := by
  intro asleep funded
  have hasleep : ∀ watch ∈ asleep.watches, ¬watch.EndedAlone := by
    have hwatches : asleep.watches =
        [⟨default, 1, .sleeping Word.zero 1, false⟩] := by decide +kernel
    rw [hwatches, List.forall_mem_singleton]
    rintro ⟨-, ⟨increase, hended⟩ | ⟨error, hended⟩⟩ <;> cases hended
  have hwatches : funded.watches =
      [⟨default, 1, .ended (.funded Word.top), false⟩] := by decide +kernel
  have halone : ∃ watch ∈ funded.watches, watch.EndedAlone := by
    rw [hwatches]
    exact ⟨_, List.mem_singleton_self _, rfl, Or.inl ⟨_, rfl⟩⟩
  have hyes : asleep.cancel.2 = true := by decide +kernel
  obtain ⟨-, -, htruthful, -⟩ := cancel_truthful_unless_ended_alone (fundedRun.take 2)
  obtain ⟨-, hagain, -, hmistaken⟩ := cancel_truthful_unless_ended_alone fundedRun
  exact ⟨⟨hyes, (htruthful hasleep).1 hyes⟩, halone, hmistaken halone, hagain [.cancel] (by simp)⟩

/-- The watch that found funds is taken for one that still polls. -/
theorem ended_watch_cancelled_in_fundedRun :
    let session := ({} : OnrampSession).reached fundedRun
    session.watches.map (·.phase) = [.ended (.funded Word.top)] ∧ session.cancel.2 = true := by
  decide +kernel

end OnrampSession

end DonationFlow
