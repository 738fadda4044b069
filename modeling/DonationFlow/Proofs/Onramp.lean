import DonationFlow.Onramp

/-!
# The watches of a session

A watch looks for its cancellation only where it goes to sleep.  Of the watches
of a session at most one is not cancelled, and a cancelled one never reads again;
but a read that is under way is let come back, and if it finds funds, the watch
turns the intent all the same.  Main statement:
`cancelled_watch_turns_intent_once_at_most`.
-/

namespace DonationFlow

namespace Watch

/-- The watch does not sleep once it is cancelled. -/
def Heeds (watch : Watch) : Prop := watch.cancelled = true → watch.due? = none

variable {watch : Watch} {now : Nat} {outcome : Except FlowError Word}

@[simp] theorem cancelled_rest (watch : Watch) (baseline : Word) (now : Nat) :
    (watch.rest baseline now).cancelled = watch.cancelled := by
  unfold rest
  split <;> rfl

@[simp] theorem cancelled_landed (watch : Watch) (now : Nat) (outcome : Except FlowError Word) :
    (watch.landed now outcome).cancelled = watch.cancelled := by
  unfold landed
  split
  · exact cancelled_rest watch _ now
  · rfl
  · split
    · rfl
    · exact cancelled_rest watch _ now
  · exact cancelled_rest watch _ now
  · rfl

@[simp] theorem cancelled_wake (watch : Watch) (now : Nat) :
    (watch.wake now).cancelled = watch.cancelled := by
  unfold wake
  split
  · split <;> rfl
  · rfl

@[simp] theorem cancelled_cancel (watch : Watch) : watch.cancel.cancelled = true := by
  unfold cancel
  split <;> rfl

/-- Only a read under way can come back. -/
theorem landed_of_not_isReading (h : watch.isReading = false) :
    watch.landed now outcome = watch := by
  obtain ⟨owner, interval, phase, cancelled⟩ := watch
  cases phase with
  | baseline | polling => cases h
  | sleeping | ended => rfl

theorem exists_ended_rest (h : watch.cancelled = true) (baseline : Word) (now : Nat) :
    ∃ how, (watch.rest baseline now).phase = .ended how := by
  rw [rest, if_pos h]
  exact ⟨_, rfl⟩

/-- What comes back to a cancelled watch ends it. -/
theorem exists_ended_landed (hcancelled : watch.cancelled = true)
    (hreading : watch.isReading = true) (now : Nat) (outcome : Except FlowError Word) :
    ∃ how, (watch.landed now outcome).phase = .ended how := by
  obtain ⟨owner, interval, phase, cancelled⟩ := watch
  cases phase with
  | sleeping | ended => cases hreading
  | baseline =>
    cases outcome with
    | error error => exact ⟨_, rfl⟩
    | ok balance => exact exists_ended_rest hcancelled balance now
  | polling baseline =>
    cases outcome with
    | error error => exact exists_ended_rest hcancelled baseline now
    | ok balance =>
      dsimp only [landed]
      split
      · exact ⟨_, rfl⟩
      · exact exists_ended_rest hcancelled baseline now

theorem heeds_of_ended {how : WatchEnd} (h : watch.phase = .ended how) : watch.Heeds := by
  intro _
  rw [due?, h]

theorem not_isReading_of_ended {how : WatchEnd} (h : watch.phase = .ended how) :
    watch.isReading = false := by
  rw [isReading, h]

theorem Heeds.landed (h : watch.Heeds) (now : Nat) (outcome : Except FlowError Word) :
    (watch.landed now outcome).Heeds := by
  cases hreading : watch.isReading with
  | false =>
    rw [landed_of_not_isReading hreading]
    exact h
  | true =>
    intro hcancelled
    rw [cancelled_landed] at hcancelled
    obtain ⟨how, hended⟩ := exists_ended_landed hcancelled hreading now outcome
    exact heeds_of_ended hended (by rw [cancelled_landed, hcancelled])

theorem Heeds.wake_eq (h : watch.Heeds) (hcancelled : watch.cancelled = true) (now : Nat) :
    watch.wake now = watch := by
  have hawake := h hcancelled
  unfold wake
  split
  · rename_i hphase
    rw [due?, hphase] at hawake
    cases hawake
  · rfl

theorem Heeds.wake (h : watch.Heeds) (now : Nat) : (watch.wake now).Heeds := by
  cases hcancelled : watch.cancelled with
  | true =>
    rw [h.wake_eq hcancelled]
    exact h
  | false =>
    intro hlater
    rw [cancelled_wake, hcancelled] at hlater
    cases hlater

theorem heeds_cancel (watch : Watch) : watch.cancel.Heeds := by
  intro _
  unfold cancel
  split
  · rfl
  · rename_i hphase
    rw [due?]
    split
    · rename_i hsleeps
      exact absurd hsleeps (hphase _ _)
    · rfl

/-- A watch that is cancelled again stays as it is. -/
theorem Heeds.cancel_eq (h : watch.Heeds) (hcancelled : watch.cancelled = true) :
    watch.cancel = watch := by
  have hawake := h hcancelled
  obtain ⟨owner, interval, phase, cancelled⟩ := watch
  obtain rfl : cancelled = true := hcancelled
  cases phase with
  | sleeping => cases hawake
  | baseline | polling | ended => rfl

end Watch

namespace OnrampSession

/-- What can happen to a session. -/
inductive Move where
  | start (account : Option Address) (interval : Nat)
  | cancel
  /-- The clock shows `now` to a watch. -/
  | wake (index now : Nat)
  /-- The read of a watch comes back. -/
  | landed (index now : Nat) (outcome : Except FlowError Word)

/-- The session after a move, with the watch that turns the intent in it. -/
def step (session : OnrampSession) : Move → OnrampSession × Option Nat
  | .start account interval =>
    match session.start account interval with
    | .ok started => (started, none)
    | .error _ => (session, none)
  | .cancel => (session.cancel.1, none)
  | .wake index now => (session.modify index (Watch.wake · now), none)
  | .landed index now outcome =>
    let (after, funded) := session.landed index now outcome
    (after, if funded then some index else none)

/-- The session that a run leads to. -/
def reached (session : OnrampSession) (moves : List Move) : OnrampSession :=
  moves.foldl (fun session move => (session.step move).1) session

/-- The watches that turn the intent in a run, in order. -/
def turns (session : OnrampSession) : List Move → List Nat
  | [] => []
  | move :: moves => (session.step move).2.toList ++ (session.step move).1.turns moves

/-- Only the current watch may not be cancelled, and every watch heeds it. -/
structure Kept (session : OnrampSession) : Prop where
  sole : ∀ (index : Nat) (watch : Watch), session.watches[index]? = some watch →
    watch.cancelled = false → session.current = some index
  heeds : ∀ (index : Nat) (watch : Watch), session.watches[index]? = some watch → watch.Heeds

variable {session : OnrampSession}

theorem watches_modify (session : OnrampSession) (index other : Nat) (change : Watch → Watch) :
    (session.modify index change).watches[other]? =
      (session.watches[other]?).map fun watch => if index = other then change watch else watch := by
  rw [modify, List.getElem?_modify]
  rfl

/-- A watch may change if its cancellation is left and heeded. -/
theorem Kept.modify (h : session.Kept) (index : Nat) {change : Watch → Watch}
    (hcancelled : ∀ watch, session.watches[index]? = some watch →
      (change watch).cancelled = watch.cancelled)
    (hheeds : ∀ watch, session.watches[index]? = some watch → (change watch).Heeds) :
    (session.modify index change).Kept where
  sole := by
    intro other watch hwatch hlive
    rw [watches_modify, Option.map_eq_some_iff] at hwatch
    obtain ⟨old, hold, rfl⟩ := hwatch
    split at hlive
    · rename_i hsame
      subst hsame
      rw [hcancelled old hold] at hlive
      exact h.sole index old hold hlive
    · exact h.sole other old hold hlive
  heeds := by
    intro other watch hwatch
    rw [watches_modify, Option.map_eq_some_iff] at hwatch
    obtain ⟨old, hold, rfl⟩ := hwatch
    split
    · rename_i hsame
      subst hsame
      exact hheeds old hold
    · exact h.heeds other old hold

/-- After a cancellation no watch is left that is not cancelled. -/
theorem Kept.cancelled_cancelCurrent (h : session.Kept) {index : Nat} {watch : Watch}
    (hwatch : session.cancelCurrent.watches[index]? = some watch) : watch.cancelled = true := by
  unfold cancelCurrent at hwatch
  cases hcurrent : session.current with
  | none =>
    rw [hcurrent] at hwatch
    cases hcancelled : watch.cancelled with
    | true => rfl
    | false => cases hcurrent.symm.trans (h.sole index watch hwatch hcancelled)
  | some current =>
    simp only [hcurrent, watches_modify, Option.map_eq_some_iff] at hwatch
    obtain ⟨old, hold, rfl⟩ := hwatch
    split
    · exact old.cancelled_cancel
    · rename_i hother
      cases hcancelled : old.cancelled with
      | true => rfl
      | false =>
        have hsame := hcurrent.symm.trans (h.sole index old hold hcancelled)
        exact absurd (Option.some.inj hsame) hother

theorem Kept.heeds_cancelCurrent (h : session.Kept) {index : Nat} {watch : Watch}
    (hwatch : session.cancelCurrent.watches[index]? = some watch) : watch.Heeds := by
  unfold cancelCurrent at hwatch
  cases hcurrent : session.current with
  | none =>
    rw [hcurrent] at hwatch
    exact h.heeds index watch hwatch
  | some current =>
    simp only [hcurrent, watches_modify, Option.map_eq_some_iff] at hwatch
    obtain ⟨old, hold, rfl⟩ := hwatch
    split
    · exact old.heeds_cancel
    · exact h.heeds index old hold

theorem Kept.cancelCurrent (h : session.Kept) : session.cancelCurrent.Kept where
  sole := by
    intro index watch hwatch hlive
    rw [h.cancelled_cancelCurrent hwatch] at hlive
    cases hlive
  heeds := fun index watch => h.heeds_cancelCurrent

/-- A cancelled watch is not touched by another cancellation. -/
theorem Kept.getElem?_cancelCurrent (h : session.Kept) {index : Nat} {watch : Watch}
    (hwatch : session.watches[index]? = some watch) (hcancelled : watch.cancelled = true) :
    session.cancelCurrent.watches[index]? = some watch := by
  unfold OnrampSession.cancelCurrent
  cases session.current with
  | none => exact hwatch
  | some current =>
    simp only [watches_modify, hwatch, Option.map_some]
    split
    · rw [(h.heeds index watch hwatch).cancel_eq hcancelled]
    · rfl

theorem length_cancelCurrent (session : OnrampSession) :
    session.cancelCurrent.watches.length = session.watches.length := by
  unfold cancelCurrent
  cases session.current with
  | none => rfl
  | some current => exact List.length_modify ..

/-- A session that started a watch cancelled the others first. -/
theorem start_eq_ok_iff {account : Option Address} {interval : Nat} {started : OnrampSession} :
    session.start account interval = .ok started ↔
      ∃ owner, account = some owner ∧
        started = { watches := session.cancelCurrent.watches ++ [{ owner, interval }]
                    current := some session.cancelCurrent.watches.length } := by
  cases account with
  | none => simp [start]
  | some owner => simp [start, eq_comm]

theorem Kept.start (h : session.Kept) {account : Option Address} {interval : Nat}
    {started : OnrampSession} (hstart : session.start account interval = .ok started) :
    started.Kept := by
  obtain ⟨owner, -, rfl⟩ := start_eq_ok_iff.1 hstart
  constructor
  · intro index watch hwatch hlive
    rw [List.getElem?_append] at hwatch
    split at hwatch
    · rw [h.cancelled_cancelCurrent hwatch] at hlive
      cases hlive
    · rename_i hbeyond
      have hlast := (List.getElem?_eq_some_iff.1 hwatch).1
      simp only [List.length_singleton] at hlast
      exact congrArg some (by omega)
  · intro index watch hwatch
    rw [List.getElem?_append] at hwatch
    split at hwatch
    · exact h.heeds_cancelCurrent hwatch
    · have hnew := List.mem_singleton.1 (List.mem_of_getElem? hwatch)
      rw [hnew]
      exact fun hcancelled => nomatch hcancelled

theorem Kept.step (h : session.Kept) (move : Move) : (session.step move).1.Kept := by
  cases move with
  | start account interval =>
    dsimp only [OnrampSession.step]
    cases hstart : session.start account interval with
    | ok started => exact h.start hstart
    | error error => exact h
  | cancel => exact h.cancelCurrent
  | wake index now =>
    exact h.modify index (fun watch _ => watch.cancelled_wake now)
      (fun watch hwatch => (h.heeds index watch hwatch).wake now)
  | landed index now outcome =>
    dsimp only [OnrampSession.step, OnrampSession.landed]
    cases hwatch : session.watches[index]? with
    | none => exact h
    | some watch =>
      refine h.modify index ?_ ?_
      · intro old hold
        obtain rfl := Option.some.inj (hwatch.symm.trans hold)
        exact watch.cancelled_landed now outcome
      · intro old hold
        obtain rfl := Option.some.inj (hwatch.symm.trans hold)
        exact (h.heeds index watch hwatch).landed now outcome

theorem Kept.reached (h : session.Kept) (moves : List Move) : (session.reached moves).Kept := by
  induction moves generalizing session with
  | nil => exact h
  | cons move moves ih => exact ih (h.step move)

theorem kept_start : ({} : OnrampSession).Kept :=
  ⟨fun _ _ hwatch => (nomatch hwatch), fun _ _ hwatch => (nomatch hwatch)⟩

/-! ## A cancelled watch -/

/-- A cancelled watch stays as it is and does not turn the intent, or the read that
was under way came back and was its last. -/
theorem Kept.step_cancelled (h : session.Kept) {index : Nat} {watch : Watch}
    (hwatch : session.watches[index]? = some watch) (hcancelled : watch.cancelled = true)
    (move : Move) :
    ∃ after, (session.step move).1.watches[index]? = some after ∧ after.cancelled = true ∧
      (after = watch ∧ (session.step move).2 ≠ some index ∨
        watch.isReading = true ∧ after.isReading = false) := by
  have hheeds := h.heeds index watch hwatch
  have hkept := h.getElem?_cancelCurrent hwatch hcancelled
  cases move with
  | start account interval =>
    dsimp only [OnrampSession.step]
    cases hstart : session.start account interval with
    | error error => exact ⟨watch, hwatch, hcancelled, Or.inl ⟨rfl, nofun⟩⟩
    | ok started =>
      obtain ⟨owner, -, rfl⟩ := start_eq_ok_iff.1 hstart
      have hbelow := (List.getElem?_eq_some_iff.1 hkept).1
      refine ⟨watch, ?_, hcancelled, Or.inl ⟨rfl, nofun⟩⟩
      rw [List.getElem?_append_left hbelow, hkept]
  | cancel => exact ⟨watch, hkept, hcancelled, Or.inl ⟨rfl, nofun⟩⟩
  | wake other now =>
    refine ⟨watch, ?_, hcancelled, Or.inl ⟨rfl, nofun⟩⟩
    rw [OnrampSession.step, watches_modify, hwatch, Option.map_some, hheeds.wake_eq hcancelled,
      ite_self]
  | landed other now outcome =>
    cases hother : session.watches[other]? with
    | none =>
      have hnothing : session.step (.landed other now outcome) = (session, none) := by
        simp [OnrampSession.step, OnrampSession.landed, hother]
      rw [hnothing]
      exact ⟨watch, hwatch, hcancelled, Or.inl ⟨rfl, nofun⟩⟩
    | some landing =>
      have hlands : session.step (.landed other now outcome) =
          (session.modify other fun _ => landing.landed now outcome,
            if landing.isReading && (landing.landed now outcome).funded?.isSome then some other
            else none) := by
        simp [OnrampSession.step, OnrampSession.landed, hother]
      rw [hlands]
      by_cases hsame : other = index
      · subst hsame
        obtain rfl := Option.some.inj (hwatch.symm.trans hother)
        refine ⟨watch.landed now outcome, ?_, by rw [Watch.cancelled_landed, hcancelled], ?_⟩
        · rw [watches_modify, hwatch, Option.map_some, if_pos rfl]
        · cases hreading : watch.isReading with
          | false => exact Or.inl ⟨Watch.landed_of_not_isReading hreading, nofun⟩
          | true =>
            obtain ⟨how, hended⟩ := Watch.exists_ended_landed hcancelled hreading now outcome
            exact Or.inr ⟨rfl, Watch.not_isReading_of_ended hended⟩
      · refine ⟨watch, ?_, hcancelled, Or.inl ⟨rfl, ?_⟩⟩
        · rw [watches_modify, hwatch, Option.map_some, if_neg hsame]
        · dsimp only
          split
          · exact fun heq => hsame (Option.some.inj heq)
          · exact nofun

/-- Once a watch is cancelled, it turns the intent at most once, and only if a read
of it is under way. -/
theorem Kept.count_turns (h : session.Kept) {index : Nat} {watch : Watch}
    (hwatch : session.watches[index]? = some watch) (hcancelled : watch.cancelled = true)
    (moves : List Move) :
    (session.turns moves).count index ≤ if watch.isReading then 1 else 0 := by
  induction moves generalizing session watch with
  | nil => exact Nat.zero_le _
  | cons move moves ih =>
    obtain ⟨after, hafter, hstill, ⟨rfl, hnone⟩ | ⟨hreading, hdone⟩⟩ :=
      h.step_cancelled hwatch hcancelled move
    · have hrest := ih (h.step move) hafter hstill
      have hfirst : (session.step move).2.toList.count index = 0 := by
        rw [List.count_eq_zero, Option.mem_toList]
        exact hnone
      rw [turns, List.count_append, hfirst, Nat.zero_add]
      exact hrest
    · have hrest := ih (h.step move) hafter hstill
      rw [hdone, if_neg Bool.false_ne_true] at hrest
      have hfirst : (session.step move).2.toList.count index ≤ 1 := by
        cases (session.step move).2 with
        | none => exact Nat.zero_le _
        | some turning => exact List.count_le_length
      rw [turns, List.count_append, hreading, if_pos rfl]
      omega

/-- Of the watches of a session at most one is not cancelled: none after a
cancellation, the new one after a start.  A watch that is cancelled turns the intent
no more, unless a read of it is under way, which may do so once. -/
theorem cancelled_watch_turns_intent_once_at_most (moves : List Move) :
    let session := ({} : OnrampSession).reached moves
    (∀ (left right : Nat) (leftWatch rightWatch : Watch),
      session.watches[left]? = some leftWatch → session.watches[right]? = some rightWatch →
      leftWatch.cancelled = false → rightWatch.cancelled = false → left = right) ∧
    (∀ (index : Nat) (watch : Watch), session.cancel.1.watches[index]? = some watch →
      watch.cancelled = true) ∧
    (∀ account interval started, session.start account interval = .ok started →
      ∀ (index : Nat) (watch : Watch), index < session.watches.length →
        started.watches[index]? = some watch → watch.cancelled = true) ∧
    ∀ (index : Nat) (watch : Watch), session.watches[index]? = some watch →
      watch.cancelled = true →
      ∀ later, (session.turns later).count index ≤ if watch.isReading then 1 else 0 := by
  intro session
  have h : session.Kept := kept_start.reached moves
  refine ⟨?_, fun index watch => h.cancelled_cancelCurrent, ?_,
    fun index watch hwatch hcancelled later => h.count_turns hwatch hcancelled later⟩
  · intro left right leftWatch rightWatch hleft hright hleftLive hrightLive
    have hsame := (h.sole left leftWatch hleft hleftLive).symm.trans
      (h.sole right rightWatch hright hrightLive)
    exact Option.some.inj hsame
  · intro account interval started hstart index watch hindex hwatch
    obtain ⟨owner, -, rfl⟩ := start_eq_ok_iff.1 hstart
    rw [← length_cancelCurrent] at hindex
    rw [List.getElem?_append_left hindex] at hwatch
    exact h.cancelled_cancelCurrent hwatch

/-- A watch is cancelled while it reads, and the read finds funds. -/
def lateRun : List Move :=
  [.start (some default) 1, .landed 0 0 (.ok Word.zero), .wake 0 1, .cancel,
    .landed 0 2 (.ok Word.top)]

/-- The read that is under way when its watch is cancelled turns the intent. -/
theorem cancelled_watch_turns_intent_in_lateRun :
    let session := ({} : OnrampSession).reached (lateRun.take 4)
    session.current = none ∧ (session.watches[0]?).map (·.cancelled) = some true ∧
      session.turns (lateRun.drop 4) = [0] := by
  decide +kernel

end OnrampSession

end DonationFlow
