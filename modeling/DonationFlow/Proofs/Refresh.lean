import DonationFlow.Refresh

/-!
# The course of a refresh

A refresh makes its first pass at once and its second one when its delay is over after
the first, unless it was cancelled by then or broken off in the first.  `Course` tells
this of what is seen of it, and each step that it can take keeps to the course.  A read
that comes back always takes it further: `events_landed`.
-/

namespace DonationFlow

/-- What is seen of a refresh: it asks for a read, a pass is through, or the first one is
broken off. -/
inductive RefreshEvent where
  | asks (read : Read)
  | ends
  | breaks
  deriving DecidableEq, Repr

namespace RefreshTarget

/-- The allowance of the spender, if there is one and the asset is not native. -/
def allowanceReads (target : RefreshTarget) : List Read :=
  match target.spender with
  | some spender =>
    if target.token.isNative then []
    else [.allowance target.chainId target.token target.owner spender]
  | none => []

/-- The position that the action is about. -/
def positionReads (target : RefreshTarget) : List Read :=
  match target.action with
  | .donate => []
  | .stake => [.staking target.owner target.campaign]
  | .wealthBuild => [.endowment target.owner target.campaign]

theorem reads_eq (target : RefreshTarget) : target.reads =
    .balance target.chainId target.token target.owner ::
      (target.allowanceReads ++ target.positionReads) := by
  obtain ⟨chainId, token, owner, spender, action, campaign⟩ := target
  rw [reads, allowanceReads, positionReads, List.filter_cons_of_pos rfl, List.filter_append]
  congr 1
  congr 1
  · cases spender with
    | none => rfl
    | some spender => cases hnative : token.isNative <;> simp [Read.reachesChain, hnative]
  · cases action <;> rfl

theorem reads_ne_nil (target : RefreshTarget) : target.reads ≠ [] := by
  rw [reads_eq]
  exact List.cons_ne_nil _ _

end RefreshTarget

/-- A pass that started with the first of its reads and has come to the first of those
that are left. -/
structure Passing (reads : List Read) (start : Nat) (left : List Read)
    (log : List (Nat × RefreshEvent)) : Prop where
  starts : log.head?.map (·.1) = some start
  asks : ∃ done read rest, reads = done ++ read :: rest ∧ left = read :: rest ∧
    log.map (·.2) = (done ++ [read]).map .asks

/-- A pass that asked for each of its reads, in order, and then ended. -/
structure Passed (reads : List Read) (start finish : Nat) (log : List (Nat × RefreshEvent)) :
    Prop where
  starts : log.head?.map (·.1) = some start
  ends : log.getLast? = some (finish, .ends)
  asks : log.map (·.2) = reads.map .asks ++ [.ends]

/-- A first pass that ended by `now`.  Whoever went through it had not gone away before
it ended. -/
structure PassedFirst (reads : List Read) (start now : Nat) (gone : Option Nat) (finish : Nat)
    (log : List (Nat × RefreshEvent)) : Prop extends Passed reads start finish log where
  past : finish ≤ now
  stayed : ∀ time, gone = some time → finish ≤ time

/-- What a refresh that started at `start` has shown by `now`, where it stands.  The flow
may have been shut down at the time `closed`, and whoever went through the first pass may
have gone away at the time `gone`. -/
inductive Course (reads : List Read) (delay start now : Nat) (closed gone : Option Nat) :
    RefreshPhase → List (Nat × RefreshEvent) → Prop
  | first {left : List Read} {log : List (Nat × RefreshEvent)}
      (hpassing : Passing reads start left log) (hstays : gone = none) :
      Course reads delay start now closed gone (.first left) log
  | cut {left : List Read} {time : Nat} {log : List (Nat × RefreshEvent)}
      (hpassing : Passing reads start left log) (hgone : gone = some time) :
      Course reads delay start now closed gone .cut (log ++ [(time, .breaks)])
  | waiting {finish : Nat} {log : List (Nat × RefreshEvent)}
      (hpassed : PassedFirst reads start now gone finish log) (hnow : now < finish + delay)
      (hopen : closed = none) :
      Course reads delay start now closed gone (.waiting (finish + delay)) log
  | stopped {finish time : Nat} {log : List (Nat × RefreshEvent)}
      (hpassed : PassedFirst reads start now gone finish log) (hclosed : closed = some time)
      (htime : time < finish + delay) :
      Course reads delay start now closed gone .ended log
  | second {finish : Nat} {left : List Read} {log later : List (Nat × RefreshEvent)}
      (hpassed : PassedFirst reads start now gone finish log) (hnow : finish + delay ≤ now)
      (hopen : ∀ time, closed = some time → finish + delay ≤ time)
      (hpassing : Passing reads (finish + delay) left later) :
      Course reads delay start now closed gone (.second left) (log ++ later)
  | through {finish last : Nat} {log later : List (Nat × RefreshEvent)}
      (hpassed : PassedFirst reads start now gone finish log) (hnow : finish + delay ≤ now)
      (hopen : ∀ time, closed = some time → finish + delay ≤ time)
      (hagain : Passed reads (finish + delay) last later) :
      Course reads delay start now closed gone .ended (log ++ later)

section Passes

variable {reads left : List Read} {start now : Nat} {read next : Read}
  {log : List (Nat × RefreshEvent)}

theorem passing_of_cons (now : Nat) (read : Read) (left : List Read) :
    Passing (read :: left) now (read :: left) [(now, .asks read)] :=
  ⟨rfl, [], read, left, rfl, rfl, rfl⟩

theorem head?_append_singleton {event : Nat × RefreshEvent}
    (h : log.head?.map (·.1) = some start) :
    (log ++ [event]).head?.map (·.1) = some start := by
  cases log with
  | nil => cases h
  | cons first log => exact h

theorem Passing.exists_cons (h : Passing reads start left log) :
    ∃ read rest, left = read :: rest := by
  obtain ⟨-, -, read, rest, -, hleft, -⟩ := h
  exact ⟨read, rest, hleft⟩

/-- A read came back and the next one is asked for. -/
theorem Passing.go (h : Passing reads start (read :: next :: left) log) (now : Nat) :
    Passing reads start (next :: left) (log ++ [(now, .asks next)]) := by
  obtain ⟨hstarts, done, asked, rest, hreads, hleft, hlog⟩ := h
  injection hleft with hread hrest
  subst hread hrest
  refine ⟨head?_append_singleton hstarts, done ++ [read], next, left, ?_, rfl, ?_⟩
  · rw [hreads, List.append_assoc]
    rfl
  · simp only [List.map_append, hlog, List.map_cons, List.map_nil]

/-- The last read came back. -/
theorem Passing.stop (h : Passing reads start [read] log) (now : Nat) :
    Passed reads start now (log ++ [(now, .ends)]) := by
  obtain ⟨hstarts, done, asked, rest, hreads, hleft, hlog⟩ := h
  injection hleft with hread hrest
  subst hread hrest
  refine ⟨head?_append_singleton hstarts, List.getLast?_concat, ?_⟩
  rw [List.map_append, hlog, hreads]
  rfl

/-- A first pass that nobody has left ends now. -/
theorem Passed.first {gone : Option Nat} (h : Passed reads start now log) (hstays : gone = none) :
    PassedFirst reads start now gone now log :=
  { h with
    past := Nat.le_refl now
    stayed := by
      rw [hstays]
      exact nofun }

theorem PassedFirst.later {gone : Option Nat} {finish later : Nat}
    (h : PassedFirst reads start now gone finish log) (hlater : now ≤ later) :
    PassedFirst reads start later gone finish log :=
  { h with past := Nat.le_trans h.past hlater }

/-- Whoever went through the first pass goes away after it. -/
theorem PassedFirst.leave {gone : Option Nat} {finish : Nat}
    (h : PassedFirst reads start now gone finish log) :
    PassedFirst reads start now (gone.or (some now)) finish log :=
  { h with
    stayed := by
      cases gone with
      | none => exact fun time htime => Option.some.inj htime ▸ h.past
      | some gone => exact h.stayed }

end Passes

/-- The reads of the pass under way that have not come back. -/
def RefreshPhase.left : RefreshPhase → List Read
  | .first left | .second left => left
  | _ => []

namespace RefreshJob

/-- What is seen as a refresh goes on: the read that it has come to, that it is broken
off, or the end of the pass that it was in. -/
def events (before after : RefreshJob) : List RefreshEvent :=
  if after.phase = before.phase then []
  else match after.phase with
    | .first (read :: _) | .second (read :: _) => [.asks read]
    | .cut => [.breaks]
    | _ => if before.current?.isSome then [.ends] else []

/-- What is seen as a refresh starts. -/
def firstEvents (job : RefreshJob) : List RefreshEvent := (job.current?.map .asks).toList

/-- The refresh is of the same success as before. -/
structure Continues (before after : RefreshJob) : Prop where
  target : after.target = before.target
  delay : after.delay = before.delay
  caller : after.caller = before.caller

/-- The refresh keeps to its course, of which `log` was seen, and knows whether the flow
was shut down. -/
structure OnCourse (job : RefreshJob) (start now : Nat) (closed gone : Option Nat)
    (log : List (Nat × RefreshEvent)) : Prop where
  course : Course job.target.reads job.delay start now closed gone job.phase log
  cancelled : job.cancelled = closed.isSome
  closed_le : ∀ time, closed = some time → time ≤ now

section Steps

variable {job : RefreshJob} {start now : Nat} {closed gone : Option Nat}
  {log : List (Nat × RefreshEvent)}

theorem Continues.refl (job : RefreshJob) : job.Continues job := ⟨rfl, rfl, rfl⟩

theorem continues_landed (job : RefreshJob) (now : Nat) : job.Continues (job.landed now) := by
  unfold RefreshJob.landed
  split <;> exact ⟨rfl, rfl, rfl⟩

theorem continues_wake (job : RefreshJob) (now : Nat) : job.Continues (job.wake now) := by
  unfold RefreshJob.wake
  split
  · split <;> exact ⟨rfl, rfl, rfl⟩
  · exact .refl job

theorem continues_cancel (job : RefreshJob) : job.Continues job.cancel := by
  unfold RefreshJob.cancel
  split <;> exact ⟨rfl, rfl, rfl⟩

theorem continues_abandon (job : RefreshJob) (caller : Option Nat) :
    job.Continues (job.abandon caller) := by
  unfold RefreshJob.abandon
  split
  · split <;> exact ⟨rfl, rfl, rfl⟩
  · exact .refl job

/-- Nothing is seen while the phase stays. -/
theorem OnCourse.of_phase_eq {after : RefreshJob} (hphase : after.phase = job.phase)
    (h : after.OnCourse start now closed gone log) :
    after.OnCourse start now closed gone (log ++ (job.events after).map (now, ·)) := by
  rw [events, if_pos hphase, List.map_nil, List.append_nil]
  exact h

/-- The read under way came back: it is seen that the next one is asked for, or that the
pass is through. -/
theorem events_landed {read : Read} {rest : List Read} (h : job.phase.left = read :: rest)
    (now : Nat) : job.events (job.landed now) = [rest.head?.elim .ends .asks] := by
  obtain ⟨target, delay, caller, phase, cancelled⟩ := job
  cases phase with
  | first left =>
    obtain rfl : left = read :: rest := h
    cases rest with
    | cons next rest => simp [RefreshJob.landed, events]
    | nil => cases cancelled <;> rfl
  | second left =>
    obtain rfl : left = read :: rest := h
    cases rest with
    | cons next rest => simp [RefreshJob.landed, events]
    | nil => rfl
  | cut | waiting | ended => cases h

theorem OnCourse.landed (h : job.OnCourse start now closed gone log) (hdelay : 0 < job.delay) :
    (job.landed now).OnCourse start now closed gone
      (log ++ (job.events (job.landed now)).map (now, ·)) := by
  obtain ⟨hcourse, hcancelled, hclosed⟩ := h
  obtain ⟨target, delay, caller, phase, cancelled⟩ := job
  dsimp only at hcourse hcancelled hdelay
  subst hcancelled
  cases hcourse with
  | @first left log hpassing hstays =>
    obtain ⟨read, rest, rfl⟩ := hpassing.exists_cons
    rw [events_landed rfl]
    cases rest with
    | cons next rest => exact ⟨.first (hpassing.go now) hstays, rfl, hclosed⟩
    | nil =>
      have hpassed := (hpassing.stop now).first hstays
      cases closed with
      | none => exact ⟨.waiting hpassed (Nat.lt_add_of_pos_right hdelay) rfl, rfl, hclosed⟩
      | some time =>
        have htime : time < now + delay := by
          have := hclosed time rfl
          omega
        exact ⟨.stopped hpassed rfl htime, rfl, hclosed⟩
  | @second finish left log later hpassed hnow hopen hpassing =>
    obtain ⟨read, rest, rfl⟩ := hpassing.exists_cons
    rw [events_landed rfl, List.append_assoc]
    cases rest with
    | cons next rest => exact ⟨.second hpassed hnow hopen (hpassing.go now), rfl, hclosed⟩
    | nil => exact ⟨.through hpassed hnow hopen (hpassing.stop now), rfl, hclosed⟩
  | cut hpassing hgone =>
    exact .of_phase_eq rfl ⟨.cut hpassing hgone, rfl, hclosed⟩
  | waiting hpassed hnow hopen =>
    exact .of_phase_eq rfl ⟨.waiting hpassed hnow hopen, rfl, hclosed⟩
  | stopped hpassed hstopped htime =>
    exact .of_phase_eq rfl ⟨.stopped hpassed hstopped htime, rfl, hclosed⟩
  | through hpassed hnow hopen hagain =>
    exact .of_phase_eq rfl ⟨.through hpassed hnow hopen hagain, rfl, hclosed⟩

/-- The clock moves on, but never past the time at which the second pass is due. -/
theorem OnCourse.wake {later : Nat} (h : job.OnCourse start now closed gone log)
    (hlater : now ≤ later) (hdue : ∀ due, job.phase = .waiting due → later ≤ max now due) :
    (job.wake later).OnCourse start later closed gone
      (log ++ (job.events (job.wake later)).map (later, ·)) := by
  obtain ⟨hcourse, hcancelled, hclosed⟩ := h
  obtain ⟨target, delay, caller, phase, cancelled⟩ := job
  dsimp only at hcourse hcancelled hdue
  subst hcancelled
  have hpast : ∀ time, closed = some time → time ≤ later :=
    fun time htime => Nat.le_trans (hclosed time htime) hlater
  cases hcourse with
  | @waiting finish log hpassed hnow hopen =>
    rw [RefreshJob.wake]
    dsimp only
    by_cases hrings : finish + delay ≤ later
    · obtain ⟨read, left, hreads⟩ := List.exists_cons_of_ne_nil target.reads_ne_nil
      have hexact : later = finish + delay := by
        have := hdue _ rfl
        omega
      have hevents : events ⟨target, delay, caller, .waiting (finish + delay), closed.isSome⟩
          ⟨target, delay, caller, .second target.reads, closed.isSome⟩ = [.asks read] := by
        simp [events, hreads]
      have hagain : Passing target.reads (finish + delay) target.reads
          [(later, .asks read)] := by
        rw [hreads, ← hexact]
        exact passing_of_cons later read left
      rw [if_pos hrings, hevents]
      refine ⟨.second (hpassed.later hlater) hrings ?_ hagain, rfl, hpast⟩
      rw [hopen]
      exact nofun
    · rw [if_neg hrings]
      exact .of_phase_eq rfl
        ⟨.waiting (hpassed.later hlater) (Nat.lt_of_not_le hrings) hopen, rfl, hpast⟩
  | first hpassing hstays =>
    exact .of_phase_eq rfl ⟨.first hpassing hstays, rfl, hpast⟩
  | cut hpassing hgone =>
    exact .of_phase_eq rfl ⟨.cut hpassing hgone, rfl, hpast⟩
  | second hpassed hnow hopen hpassing =>
    exact .of_phase_eq rfl ⟨.second (hpassed.later hlater) (Nat.le_trans hnow hlater) hopen
      hpassing, rfl, hpast⟩
  | stopped hpassed hstopped htime =>
    exact .of_phase_eq rfl ⟨.stopped (hpassed.later hlater) hstopped htime, rfl, hpast⟩
  | through hpassed hnow hopen hagain =>
    exact .of_phase_eq rfl ⟨.through (hpassed.later hlater) (Nat.le_trans hnow hlater) hopen
      hagain, rfl, hpast⟩

/-- The flow is shut down, if it was not so before. -/
theorem OnCourse.cancel (h : job.OnCourse start now closed gone log) :
    job.cancel.OnCourse start now (closed <|> some now) gone
      (log ++ (job.events job.cancel).map (now, ·)) := by
  obtain ⟨hcourse, hcancelled, hclosed⟩ := h
  obtain ⟨target, delay, caller, phase, cancelled⟩ := job
  dsimp only at hcourse hcancelled
  have hsome : (closed <|> some now).isSome = true := by cases closed <;> rfl
  have hby : ∀ time, (closed <|> some now) = some time → closed = some time ∨ time = now := by
    cases closed with
    | none => exact fun time htime => Or.inr (Option.some.inj htime).symm
    | some closed => exact fun time htime => Or.inl htime
  have hclosed' : ∀ time, (closed <|> some now) = some time → time ≤ now := fun time htime =>
    (hby time htime).elim (hclosed time) fun heq => Nat.le_of_eq heq
  have hstays : ∀ due, due ≤ now → (∀ time, closed = some time → due ≤ time) →
      ∀ time, (closed <|> some now) = some time → due ≤ time :=
    fun due hdue hopen time htime => (hby time htime).elim (hopen time) fun heq => heq ▸ hdue
  cases hcourse with
  | @waiting finish log hpassed hnow hopen =>
    subst hopen
    have hsilent : events ⟨target, delay, caller, .waiting (finish + delay), cancelled⟩
        ⟨target, delay, caller, .ended, true⟩ = [] := rfl
    rw [RefreshJob.cancel, hsilent, List.map_nil, List.append_nil]
    exact ⟨.stopped hpassed rfl hnow, rfl, hclosed'⟩
  | first hpassing hstays =>
    exact .of_phase_eq rfl ⟨.first hpassing hstays, hsome.symm, hclosed'⟩
  | cut hpassing hgone =>
    exact .of_phase_eq rfl ⟨.cut hpassing hgone, hsome.symm, hclosed'⟩
  | second hpassed hnow hopen hpassing =>
    exact .of_phase_eq rfl
      ⟨.second hpassed hnow (hstays _ hnow hopen) hpassing, hsome.symm, hclosed'⟩
  | stopped hpassed hstopped htime =>
    exact .of_phase_eq rfl ⟨.stopped hpassed (by rw [hstopped]; rfl) htime, hsome.symm, hclosed'⟩
  | through hpassed hnow hopen hagain =>
    exact .of_phase_eq rfl
      ⟨.through hpassed hnow (hstays _ hnow hopen) hagain, hsome.symm, hclosed'⟩

/-- The caller goes away.  It is gone for the refresh if it went through its first pass and
had not gone before. -/
theorem OnCourse.abandon (h : job.OnCourse start now closed gone log) (caller : Option Nat) :
    (job.abandon caller).OnCourse start now closed
      (gone.or (if job.caller = caller then some now else none))
      (log ++ (job.events (job.abandon caller)).map (now, ·)) := by
  by_cases hcaller : job.caller = caller
  · obtain ⟨hcourse, hcancelled, hclosed⟩ := h
    obtain ⟨target, delay, caller, phase, cancelled⟩ := job
    subst hcaller
    dsimp only at hcourse hcancelled
    rw [if_pos rfl]
    cases hcourse with
    | @first left log hpassing hstays =>
      subst hstays
      have hbreaks : events ⟨target, delay, caller, .first left, cancelled⟩
          ⟨target, delay, caller, .cut, cancelled⟩ = [.breaks] := rfl
      rw [RefreshJob.abandon]
      dsimp only
      rw [if_pos rfl, hbreaks]
      exact ⟨.cut hpassing rfl, hcancelled, hclosed⟩
    | cut hpassing hgone =>
      exact .of_phase_eq rfl ⟨.cut hpassing (by rw [hgone]; rfl), hcancelled, hclosed⟩
    | waiting hpassed hnow hopen =>
      exact .of_phase_eq rfl ⟨.waiting hpassed.leave hnow hopen, hcancelled, hclosed⟩
    | stopped hpassed hstopped htime =>
      exact .of_phase_eq rfl ⟨.stopped hpassed.leave hstopped htime, hcancelled, hclosed⟩
    | second hpassed hnow hopen hpassing =>
      exact .of_phase_eq rfl ⟨.second hpassed.leave hnow hopen hpassing, hcancelled, hclosed⟩
    | through hpassed hnow hopen hagain =>
      exact .of_phase_eq rfl ⟨.through hpassed.leave hnow hopen hagain, hcancelled, hclosed⟩
  · have hsame : job.abandon caller = job := by
      rw [RefreshJob.abandon]
      split
      · exact if_neg hcaller
      · rfl
    rw [hsame, if_neg hcaller, Option.or_none]
    exact .of_phase_eq rfl h

end Steps

end RefreshJob

namespace Refresher

/-- What is seen of the refresh of that index as the refresher goes on. -/
def seen (before after : Refresher) (index : Nat) : List RefreshEvent :=
  match before.jobs[index]?, after.jobs[index]? with
  | some job, some next => job.events next
  | none, some next => next.firstEvents
  | _, none => []

/-- The refresh of that index is of `target`, the caller goes through its first pass, and
it keeps to its course, of which `log` was seen. -/
def Underway (refresher : Refresher) (index : Nat) (target : RefreshTarget) (delay : Nat)
    (caller : Option Nat) (start now : Nat) (closed gone : Option Nat)
    (log : List (Nat × RefreshEvent)) : Prop :=
  ∃ job, refresher.jobs[index]? = some job ∧ job.target = target ∧ job.delay = delay ∧
    job.caller = caller ∧ job.OnCourse start now closed gone log

section Steps

variable {refresher after : Refresher} {index : Nat} {target : RefreshTarget} {delay : Nat}
  {caller : Option Nat} {start now : Nat} {closed gone : Option Nat}
  {log : List (Nat × RefreshEvent)}

theorem seen_of_getElem? {job next : RefreshJob} (hjob : refresher.jobs[index]? = some job)
    (hnext : after.jobs[index]? = some next) : refresher.seen after index = job.events next := by
  rw [seen, hjob, hnext]

/-- A refresh that goes on as `advance` says is still under way if that keeps to the
course. -/
theorem Underway.advance {later : Nat} {closed' gone' : Option Nat}
    (h : refresher.Underway index target delay caller start now closed gone log)
    (advance : RefreshJob → RefreshJob)
    (hafter : after.jobs[index]? = refresher.jobs[index]?.map advance)
    (hcontinues : ∀ job, RefreshJob.Continues job (advance job))
    (hcourse : ∀ job, refresher.jobs[index]? = some job → job.delay = delay →
      job.caller = caller → job.OnCourse start now closed gone log →
      (advance job).OnCourse start later closed' gone'
        (log ++ (job.events (advance job)).map (later, ·))) :
    after.Underway index target delay caller start later closed' gone'
      (log ++ (refresher.seen after index).map (later, ·)) := by
  obtain ⟨job, hjob, htarget, hdelay, hcaller, honCourse⟩ := h
  have hnext : after.jobs[index]? = some (advance job) := by rw [hafter, hjob]; rfl
  have hsame := hcontinues job
  rw [seen_of_getElem? hjob hnext]
  exact ⟨_, hnext, hsame.target.trans htarget, hsame.delay.trans hdelay,
    hsame.caller.trans hcaller, hcourse job hjob hdelay hcaller honCourse⟩

theorem Underway.of_getElem?_eq
    (h : refresher.Underway index target delay caller start now closed gone log)
    (hkept : after.jobs[index]? = refresher.jobs[index]?) :
    after.Underway index target delay caller start now closed gone
      (log ++ (refresher.seen after index).map (now, ·)) :=
  h.advance id (by rw [hkept, Option.map_id_fun, id]) .refl
    fun _ _ _ _ hcourse => .of_phase_eq rfl hcourse

theorem startAll_eq (refresher : Refresher) (targets : List RefreshTarget) (delay : Nat)
    (caller : Option Nat) : refresher.startAll targets delay caller =
      { refresher with
        jobs := refresher.jobs ++
          targets.map (RefreshJob.start · delay caller refresher.cancelled) } := by
  induction targets generalizing refresher with
  | nil => simp [startAll]
  | cons target targets ih =>
    have htail := ih (refresher.start target delay caller)
    rw [startAll] at htail ⊢
    rw [List.foldl_cons, htail]
    simp [Refresher.start]

theorem Underway.landed (h : refresher.Underway index target delay caller start now closed gone log)
    (hdelay : 0 < delay) (other : Nat) :
    (refresher.landed other now).Underway index target delay caller start now closed gone
      (log ++ (refresher.seen (refresher.landed other now) index).map (now, ·)) := by
  by_cases hother : other = index
  · subst hother
    refine h.advance (RefreshJob.landed · now) (List.getElem?_modify_eq _ _ _)
      (RefreshJob.continues_landed · now) ?_
    exact fun job _ hjobDelay _ hcourse => hcourse.landed (hjobDelay ▸ hdelay)
  · exact h.of_getElem?_eq (List.getElem?_modify_ne _ _ hother)

theorem Underway.wake {later : Nat}
    (h : refresher.Underway index target delay caller start now closed gone log)
    (hlater : now ≤ later) (hdue : ∀ job ∈ refresher.jobs, ∀ due, job.phase = .waiting due →
      later ≤ max now due) :
    (refresher.wake later).Underway index target delay caller start later closed gone
      (log ++ (refresher.seen (refresher.wake later) index).map (later, ·)) :=
  h.advance (RefreshJob.wake · later) List.getElem?_map (RefreshJob.continues_wake · later)
    fun job hjob _ _ hcourse => hcourse.wake hlater (hdue job (List.mem_of_getElem? hjob))

theorem Underway.cancel
    (h : refresher.Underway index target delay caller start now closed gone log) :
    refresher.cancel.Underway index target delay caller start now (closed <|> some now) gone
      (log ++ (refresher.seen refresher.cancel index).map (now, ·)) :=
  h.advance RefreshJob.cancel List.getElem?_map RefreshJob.continues_cancel
    fun _ _ _ _ hcourse => hcourse.cancel

/-- A call goes away, which may be the one that goes through the first pass. -/
theorem Underway.abandon
    (h : refresher.Underway index target delay caller start now closed gone log) (id : Nat) :
    (refresher.abandon id).Underway index target delay caller start now closed
      (gone.or (if caller = some id then some now else none))
      (log ++ (refresher.seen (refresher.abandon id) index).map (now, ·)) := by
  refine h.advance (RefreshJob.abandon · (some id)) List.getElem?_map
    (RefreshJob.continues_abandon · (some id)) ?_
  rintro job - - rfl hcourse
  exact hcourse.abandon (some id)

/-- Whoever reported a success goes away. -/
theorem Underway.hangUp
    (h : refresher.Underway index target delay caller start now closed gone log) (other : Nat) :
    (refresher.hangUp other).Underway index target delay caller start now closed
      (gone.or (if caller = none ∧ other = index then some now else none))
      (log ++ (refresher.seen (refresher.hangUp other) index).map (now, ·)) := by
  by_cases hother : other = index
  · subst hother
    refine h.advance (RefreshJob.abandon · none) (List.getElem?_modify_eq _ _ _)
      (RefreshJob.continues_abandon · none) ?_
    rintro job - - rfl hcourse
    simpa using hcourse.abandon none
  · rw [if_neg fun hboth => hother hboth.2, Option.or_none]
    exact h.of_getElem?_eq (List.getElem?_modify_ne _ _ hother)

end Steps

end Refresher

end DonationFlow
