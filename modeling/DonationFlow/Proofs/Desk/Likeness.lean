import DonationFlow.Proofs.Desk.Settling

/-!
# Desks that differ in the table alone

Only settling looks at the table of processed hashes.  Two desks are alike up to
some hidden hashes if they agree in all but the table, and there on every other
hash; every operation keeps them alike, settling included as long as no hidden
hash is in flight.
-/

namespace DonationFlow.Desk

/-- The desk with another table of processed hashes. -/
def withProcessed (desk : Desk) (table : Table TxHash Bool) : Desk :=
  { desk with processed := table }

theorem enter_withProcessed (desk : Desk) (table : Table TxHash Bool) (status : Status) :
    (desk.withProcessed table).enter status = (desk.enter status).withProcessed table := by
  rw [enter_eq, enter_eq]
  rfl

theorem beginExecution_withProcessed (desk : Desk) (table : Table TxHash Bool) (plan : Plan) :
    (desk.withProcessed table).beginExecution plan =
      (desk.beginExecution plan).withProcessed table := by
  rw [beginExecution_eq, beginExecution_eq]
  rfl

theorem taken_withProcessed (desk : Desk) (table : Table TxHash Bool) :
    (desk.withProcessed table).taken = desk.taken.withProcessed table := by
  rw [taken_eq, taken_eq]
  rfl

theorem unplanned_withProcessed (desk : Desk) (table : Table TxHash Bool) (error : FlowError) :
    (desk.withProcessed table).unplanned error = (desk.unplanned error).withProcessed table := by
  rw [unplanned_eq, unplanned_eq]
  rfl

theorem reset_withProcessed (desk : Desk) (table : Table TxHash Bool) (intent : Intent) :
    (desk.withProcessed table).reset intent = (desk.reset intent).withProcessed table := by
  rw [reset_eq, reset_eq]
  rfl

theorem typeIf_withProcessed (desk : Desk) (table : Table TxHash Bool) (amount : Option String) :
    (desk.withProcessed table).typeIf amount = (desk.typeIf amount).withProcessed table := by
  cases amount with
  | none => rfl
  | some text =>
    rw [typeIf, typeIf, typeAmount_eq, typeAmount_eq]
    rfl

theorem failWith_withProcessed (desk : Desk) (table : Table TxHash Bool) (error : FlowError)
    (bridged : Bool) :
    (desk.withProcessed table).failWith error bridged =
      (desk.failWith error bridged).withProcessed table := by
  rw [failWith_eq, failWith_eq]
  rfl

theorem recordFlight_withProcessed (desk : Desk) (table : Table TxHash Bool)
    (settings : Settings) (attempt : Attempt) (hash : TxHash) :
    (desk.withProcessed table).recordFlight settings attempt hash =
      (desk.recordFlight settings attempt hash).withProcessed table := by
  rw [recordFlight_eq, recordFlight_eq]
  rfl

theorem submit_withProcessed (desk : Desk) (table : Table TxHash Bool) (settings : Settings)
    (cache : ReadCache) (account : Option Address) :
    (desk.withProcessed table).submit settings cache account =
      ((desk.submit settings cache account).1.withProcessed table,
        (desk.submit settings cache account).2) := by
  cases account with
  | none => rfl
  | some account =>
    cases hstatus : desk.status.isInProgress with
    | true => simp [submit, withProcessed, hstatus]
    | false =>
    cases hunits : desk.intent.units.isZero with
    | true => simp [submit, withProcessed, hstatus, hunits]
    | false =>
    have hintent : (desk.taken.withProcessed table).intent = desk.taken.intent := rfl
    have hepoch : (desk.taken.withProcessed table).epoch = desk.taken.epoch := rfl
    rw [submit_eq_taken settings cache account hstatus hunits,
      @submit_eq_taken (desk.withProcessed table) settings cache account hstatus hunits,
      taken_withProcessed, hintent, hepoch]
    cases Plan.ofIntent desk.taken.intent settings.campaign settings.contracts with
    | error error => simp only [unplanned_withProcessed]
    | ok plan =>
      cases approvalFor settings cache account desk.taken.intent with
      | some approval => simp only [enter_withProcessed]
      | none => simp only [beginExecution_withProcessed]

/-- Whether there is nothing for the watcher to take up. -/
def isSettledFor (desk : Desk) (settings : Settings) (cache : ReadCache) (account : Address) :
    Bool :=
  desk.status ≠ .approved || desk.inFlight.isSome || desk.intent.units.isZero ||
    desk.needsApproval settings cache (some account)

theorem resume_eq (desk : Desk) (settings : Settings) (cache : ReadCache) (account : Address) :
    desk.resume settings cache (some account) =
      if desk.isSettledFor settings cache account then .ok none
      else (Plan.ofIntent desk.intent settings.campaign settings.contracts).map fun plan =>
        some (desk.beginExecution plan, ⟨desk.epoch, account, desk.intent, plan⟩) := rfl

theorem resume_withProcessed (desk : Desk) (table : Table TxHash Bool) (settings : Settings)
    (cache : ReadCache) (account : Option Address) :
    (desk.withProcessed table).resume settings cache account =
      (desk.resume settings cache account).map
        (Option.map fun taken => (taken.1.withProcessed table, taken.2)) := by
  cases account with
  | none => rfl
  | some account =>
    have hsettled : (desk.withProcessed table).isSettledFor settings cache account =
        desk.isSettledFor settings cache account := rfl
    rw [resume_eq, resume_eq, hsettled]
    cases desk.isSettledFor settings cache account with
    | true => rfl
    | false =>
      have hintent : (desk.withProcessed table).intent = desk.intent := rfl
      rw [hintent]
      cases Plan.ofIntent desk.intent settings.campaign settings.contracts with
      | error error => rfl
      | ok plan =>
        have hbegun := beginExecution_withProcessed desk table plan
        simp only [Bool.false_eq_true, if_false, Except.map, Option.map, hbegun]
        rfl

theorem processed_of_resume {desk after : Desk} {settings : Settings} {cache : ReadCache}
    {account : Option Address} {attempt : Attempt}
    (h : desk.resume settings cache account = .ok (some (after, attempt))) :
    after.processed = desk.processed := by
  have hself := resume_withProcessed desk desk.processed settings cache account
  rw [show desk.withProcessed desk.processed = desk from rfl, h] at hself
  simp only [Except.map, Option.map, Except.ok.injEq, Option.some.injEq, Prod.mk.injEq,
    and_true] at hself
  rw [hself]
  rfl

theorem edit_withProcessed (desk : Desk) (table : Table TxHash Bool) (edit : Edit) :
    (desk.withProcessed table).edit edit =
      (desk.edit edit).map fun result => (result.1.withProcessed table, result.2) := by
  have hintent : (desk.withProcessed table).intent = desk.intent := rfl
  cases hedit : desk.edit edit with
  | error error =>
    cases htarget : edit.target desk.intent with
    | error other =>
      simp only [Desk.edit, htarget, bind, Except.bind] at hedit
      simp only [Desk.edit, hintent, htarget, bind, Except.bind, Except.map, hedit]
    | ok target => simp [Desk.edit, htarget, bind, Except.bind, pure, Except.pure] at hedit
  | ok result =>
    obtain ⟨entered, startsOver⟩ := result
    obtain ⟨action, chain, token, htarget, hdiffers, rfl⟩ := edit_eq_ok_iff.1 hedit
    refine edit_eq_ok_iff.2 ⟨action, chain, token, htarget, hdiffers, ?_⟩
    cases startsOver with
    | true =>
      rw [if_pos rfl, if_pos rfl, reset_withProcessed, typeIf_withProcessed]
    | false =>
      rw [if_neg Bool.false_ne_true, if_neg Bool.false_ne_true, typeIf_withProcessed]

/-! ## Alike desks -/

/-- The desks agree in all but the table, and there on every hash that is not
hidden. -/
structure Like (hidden : TxHash → Prop) (desk other : Desk) : Prop where
  shown : desk = other.withProcessed desk.processed
  processed : ∀ hash, ¬hidden hash → desk.processed.get? hash = other.processed.get? hash

variable {hidden : TxHash → Prop} {desk other : Desk}

theorem Like.refl (hidden : TxHash → Prop) (desk : Desk) : Like hidden desk desk :=
  ⟨rfl, fun _ _ => rfl⟩

/-- An operation that the table plays no part in keeps desks alike. -/
theorem Like.map (h : Like hidden desk other) (op : Desk → Desk)
    (hop : ∀ desk table, op (Desk.withProcessed desk table) = (op desk).withProcessed table) :
    Like hidden (op desk) (op other) := by
  have hprocessed : ∀ desk, (op desk).processed = desk.processed := by
    intro desk
    have hself := hop desk desk.processed
    rw [show desk.withProcessed desk.processed = desk from rfl] at hself
    rw [hself]
    rfl
  constructor
  · rw [hprocessed, ← hop, ← h.shown]
  · rw [hprocessed, hprocessed]
    exact h.processed

/-- What came of one desk is what came of the other, under its own table. -/
theorem Like.withProcessed (h : Like hidden desk other) {after : Desk}
    (hprocessed : after.processed = other.processed) :
    Like hidden (after.withProcessed desk.processed) after := by
  refine ⟨rfl, fun hash hhash => ?_⟩
  rw [hprocessed]
  exact h.processed hash hhash

/-- Putting a hidden hash in the table cannot be told. -/
theorem Like.put_left (h : Like hidden desk other) {hash : TxHash} (hhash : hidden hash)
    (applied : Bool) :
    Like hidden (desk.withProcessed (desk.processed.put hash applied)) other := by
  constructor
  · rw [h.shown]
    rfl
  · intro asked hasked
    have hne : asked ≠ hash := by
      rintro rfl
      exact hasked hhash
    rw [← h.processed asked hasked]
    exact Table.get?_put_of_ne _ _ hne

theorem Like.put_right (h : Like hidden desk other) {hash : TxHash} (hhash : hidden hash)
    (applied : Bool) :
    Like hidden desk (other.withProcessed (other.processed.put hash applied)) := by
  refine ⟨h.shown, ?_⟩
  intro asked hasked
  have hne : asked ≠ hash := by
    rintro rfl
    exact hasked hhash
  rw [h.processed asked hasked]
  exact (Table.get?_put_of_ne _ _ hne).symm

theorem Like.put (h : Like hidden desk other) (hash : TxHash) (applied : Bool) :
    Like hidden (desk.withProcessed (desk.processed.put hash applied))
      (other.withProcessed (other.processed.put hash applied)) := by
  constructor
  · rw [h.shown]
    rfl
  · intro asked hasked
    show (desk.processed.put hash applied).get? asked =
      (other.processed.put hash applied).get? asked
    rw [Table.get?_put, Table.get?_put, h.processed asked hasked]

/-- An outcome that is not that of the execution in flight keeps desks alike if
its hash is hidden. -/
theorem Like.settle_hidden (h : Like hidden desk other) {hash : TxHash} (hhash : hidden hash)
    (outcome : Except FlowError Bool)
    (hforeign : ∀ flight, other.inFlight = some flight → flight.hash ≠ hash) :
    Like hidden (desk.settle hash outcome).1 (other.settle hash outcome).1 := by
  have hflight : desk.inFlight = other.inFlight := by
    rw [h.shown]
    rfl
  have hleft : Like hidden (desk.settle hash outcome).1 other := by
    rcases ((settles desk hash outcome).eq_of_not_inFlight (hflight ▸ hforeign)).1 with
      heq | ⟨-, heq⟩ <;> rw [heq]
    · exact h
    · exact h.put_left hhash false
  rcases ((settles other hash outcome).eq_of_not_inFlight hforeign).1 with heq | ⟨-, heq⟩ <;>
    rw [heq]
  · exact hleft
  · exact hleft.put_right hhash false

theorem Like.applySuccess (h : Like hidden desk other) (flight : InFlight) (hash : TxHash) :
    Like hidden (desk.applySuccess flight hash) (other.applySuccess flight hash) := by
  have hput := h.put hash true
  rw [applySuccess_eq, applySuccess_eq]
  refine ⟨?_, hput.processed⟩
  rw [h.shown]
  rfl

theorem Like.applyFailure (h : Like hidden desk other) (flight : InFlight) (hash : TxHash)
    (error : FlowError) :
    Like hidden (desk.applyFailure flight hash error) (other.applyFailure flight hash error) := by
  rw [applyFailure_eq, applyFailure_eq]
  refine ⟨?_, h.processed⟩
  rw [h.shown]
  rfl

/-- Alike desks are settled alike, if no hidden hash is in flight. -/
theorem Like.settle (h : Like hidden desk other) (hash : TxHash)
    (outcome : Except FlowError Bool)
    (hforeign : hidden hash → ∀ flight, other.inFlight = some flight → flight.hash ≠ hash) :
    Like hidden (desk.settle hash outcome).1 (other.settle hash outcome).1 := by
  by_cases hhash : hidden hash
  · exact h.settle_hidden hhash outcome (hforeign hhash)
  have hflight : desk.inFlight.filter (·.hash = hash) = other.inFlight.filter (·.hash = hash) := by
    rw [h.shown]
    rfl
  have hprocessed := h.processed hash hhash
  unfold Desk.settle
  rw [hprocessed, hflight]
  split
  · exact h
  · exact h
  · split
    · exact h.applySuccess _ hash
    · exact h.applyFailure _ hash _
    · exact h.applyFailure _ hash _
    · exact h.put hash false
    · exact h

end DonationFlow.Desk
