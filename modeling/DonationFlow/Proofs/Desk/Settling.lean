import DonationFlow.Proofs.Desk.Frame

/-!
# What settling leads to

An outcome meets one of five situations: its hash is already processed, it is
that of the execution in flight and well or not, or it belongs to nothing that
is in flight and is confirmed or not.  All that is said of settling is read off
these five.
-/

namespace DonationFlow

/-- Whether the outcome decided the status. -/
def Settled.changes : Settled → Bool
  | .confirmed _ | .failed _ => true
  | _ => false

namespace Desk

/-- Why an execution is not confirmed. -/
def failureOf (hash : TxHash) : Except FlowError Bool → FlowError
  | .error error => error
  | .ok _ => .notMined hash.text

/-- How an outcome of `hash` settles, situation by situation. -/
inductive Settles (desk : Desk) (hash : TxHash) : Except FlowError Bool → Desk → Settled → Prop
  | known {applied : Bool} (outcome : Except FlowError Bool)
      (hprocessed : desk.processed.get? hash = some applied) :
      Settles desk hash outcome desk (if applied then .alreadyConfirmed else .ignored)
  | succeeded {flight : InFlight} (hprocessed : desk.processed.get? hash = none)
      (hflight : desk.inFlight = some flight) (hhash : flight.hash = hash) :
      Settles desk hash (.ok true) (desk.applySuccess flight hash) (.confirmed flight.target)
  | failed {flight : InFlight} {outcome : Except FlowError Bool}
      (hprocessed : desk.processed.get? hash = none)
      (hflight : desk.inFlight = some flight) (hhash : flight.hash = hash)
      (houtcome : outcome ≠ .ok true) :
      Settles desk hash outcome (desk.applyFailure flight hash (failureOf hash outcome))
        (.failed (failureOf hash outcome))
  | strayed (hprocessed : desk.processed.get? hash = none)
      (hflight : ∀ flight, desk.inFlight = some flight → flight.hash ≠ hash) :
      Settles desk hash (.ok true) { desk with processed := desk.processed.put hash false }
        .ignored
  | lost {outcome : Except FlowError Bool} (hprocessed : desk.processed.get? hash = none)
      (hflight : ∀ flight, desk.inFlight = some flight → flight.hash ≠ hash)
      (houtcome : outcome ≠ .ok true) : Settles desk hash outcome desk .ignored

theorem settles (desk : Desk) (hash : TxHash) (outcome : Except FlowError Bool) :
    Settles desk hash outcome (desk.settle hash outcome).1 (desk.settle hash outcome).2 := by
  unfold settle
  cases hprocessed : desk.processed.get? hash with
  | some applied => cases applied <;> exact .known outcome hprocessed
  | none =>
    cases hfilter : desk.inFlight.filter (·.hash = hash) with
    | some flight =>
      obtain ⟨hflight, hhash⟩ := Option.filter_eq_some_iff.1 hfilter
      have hhash := of_decide_eq_true hhash
      match outcome with
      | .ok true => exact .succeeded hprocessed hflight hhash
      | .ok false => exact .failed hprocessed hflight hhash (by simp)
      | .error error => exact .failed hprocessed hflight hhash (by simp)
    | none =>
      have hflight : ∀ flight, desk.inFlight = some flight → flight.hash ≠ hash := by
        intro flight hsome
        simpa [hsome] using hfilter
      match outcome with
      | .ok true => exact .strayed hprocessed hflight
      | .ok false => exact .lost hprocessed hflight (by simp)
      | .error error => exact .lost hprocessed hflight (by simp)

variable {desk after : Desk} {hash : TxHash} {outcome : Except FlowError Bool}
  {settled : Settled}

/-- An outcome changes the status exactly if it is that of the execution in
flight. -/
theorem Settles.changed_iff (h : Settles desk hash outcome after settled)
    (hpending : ∀ flight, desk.inFlight = some flight → desk.status = .pending) :
    settled.changes = true ↔ after.status ≠ desk.status := by
  cases h with
  | @known applied => cases applied <;> simp [Settled.changes]
  | strayed | lost => simp [Settled.changes]
  | succeeded _ hflight =>
    rw [applySuccess_eq, hpending _ hflight]
    simp [Settled.changes]
  | failed _ hflight =>
    rw [applyFailure_eq, hpending _ hflight]
    simp [Settled.changes]

/-- Once a hash is processed, its outcomes leave the desk as it is. -/
theorem Settles.eq_of_processed (h : Settles desk hash outcome after settled)
    {applied : Bool} (hprocessed : desk.processed.get? hash = some applied) :
    after = desk ∧ settled = if applied then .alreadyConfirmed else .ignored := by
  cases h with
  | known _ hknown =>
    rw [hprocessed] at hknown
    obtain rfl := Option.some.inj hknown
    exact ⟨rfl, rfl⟩
  | succeeded hnone | failed hnone | strayed hnone | lost hnone =>
    rw [hprocessed] at hnone
    cases hnone

/-- Only a confirmation puts its hash in the table. -/
theorem Settles.processed_new (h : Settles desk hash outcome after settled) {other : TxHash}
    {applied : Bool} (hother : after.processed.get? other = some applied) :
    desk.processed.get? other = some applied ∨ other = hash ∧ outcome = .ok true := by
  have hput : ∀ value, (desk.processed.put hash value).get? other = some applied →
      desk.processed.get? other = some applied ∨ other = hash := by
    intro value hvalue
    by_cases heq : other = hash
    · exact Or.inr heq
    · rw [Table.get?_put_of_ne _ _ heq] at hvalue
      exact Or.inl hvalue
  cases h with
  | known | lost => exact Or.inl hother
  | succeeded =>
    rw [applySuccess_eq] at hother
    exact (hput true hother).imp_right fun heq => ⟨heq, rfl⟩
  | failed =>
    rw [applyFailure_eq] at hother
    exact Or.inl hother
  | strayed => exact (hput false hother).imp_right fun heq => ⟨heq, rfl⟩

/-- A confirmation leaves its hash in the table. -/
theorem Settles.processed_of_confirmed (h : Settles desk hash (.ok true) after settled) :
    after.processed.get? hash ≠ none := by
  cases h with
  | known _ hprocessed => simp [hprocessed]
  | succeeded =>
    rw [applySuccess_eq]
    simp
  | failed _ _ _ hfailed => exact absurd rfl hfailed
  | strayed => simp
  | lost _ _ hfailed => exact absurd rfl hfailed

/-- The entry of an execution that stays in flight does not change. -/
theorem Settles.processed_inFlight (h : Settles desk hash outcome after settled)
    {flight : InFlight} (hflight : after.inFlight = some flight) :
    after.processed.get? flight.hash = desk.processed.get? flight.hash := by
  cases h with
  | known | lost => rfl
  | succeeded =>
    rw [applySuccess_eq] at hflight
    cases hflight
  | failed =>
    rw [applyFailure_eq] at hflight
    cases hflight
  | strayed _ hother => exact Table.get?_put_of_ne _ _ (hother flight hflight)

/-- An execution in flight whose hash is processed is never settled. -/
theorem Settles.inFlight_of_processed (h : Settles desk hash outcome after settled)
    {flight : InFlight} (hflight : desk.inFlight = some flight)
    (hprocessed : desk.processed.get? flight.hash ≠ none) : after.inFlight = some flight := by
  cases h with
  | known | strayed | lost => exact hflight
  | succeeded hnone hsome hhash | failed hnone hsome hhash =>
    obtain rfl := Option.some.inj (hflight.symm.trans hsome)
    rw [hhash] at hprocessed
    exact absurd hnone hprocessed

/-- Once a hash is settled, no execution of that hash is left to be settled. -/
theorem Settles.none_left (h : Settles desk hash outcome after settled) {flight : InFlight}
    (hflight : after.inFlight = some flight)
    (hnone : after.processed.get? flight.hash = none) : flight.hash ≠ hash := by
  cases h with
  | known _ hprocessed =>
    rintro rfl
    cases hprocessed.symm.trans hnone
  | succeeded =>
    rw [applySuccess_eq] at hflight
    cases hflight
  | failed =>
    rw [applyFailure_eq] at hflight
    cases hflight
  | strayed _ hother | lost _ hother => exact hother flight hflight

/-- An outcome that is not that of the execution in flight shows nowhere but in
the table of processed hashes. -/
theorem Settles.eq_of_not_inFlight (h : Settles desk hash outcome after settled)
    (hflight : ∀ flight, desk.inFlight = some flight → flight.hash ≠ hash) :
    (after = desk ∨ desk.processed.get? hash = none ∧
      after = { desk with processed := desk.processed.put hash false }) ∧
    (settled = .alreadyConfirmed ∨ settled = .ignored) := by
  cases h with
  | @known applied => cases applied <;> simp
  | succeeded _ hsome hhash => exact absurd hhash (hflight _ hsome)
  | failed _ hsome hhash => exact absurd hhash (hflight _ hsome)
  | strayed hprocessed => exact ⟨Or.inr ⟨hprocessed, rfl⟩, Or.inr rfl⟩
  | lost => exact ⟨Or.inl rfl, Or.inr rfl⟩

end Desk

end DonationFlow
