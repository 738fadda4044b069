import DonationFlow.Json.Shape

/-!
# Domain values from JSON

Positions, receipts and edits as they are sent to the program.
-/

namespace DonationFlow

open Json (Reader)
open Json.Reader

/-- A position under construction: three amounts and two shares. -/
structure PositionDraft where
  principal : Option Word := none
  second : Option Word := none
  third : Option Word := none
  causeShare : Option Nat := none
  donorShare : Option Nat := none

/-- The fields of a position; the names of two amounts differ by its kind. -/
def PositionDraft.fields (second third : String) : List (Member PositionDraft) :=
  [.of "principal" word fun value draft => { draft with principal := some value },
   .of second word fun value draft => { draft with second := some value },
   .of third word fun value draft => { draft with third := some value },
   .of "cause_share" (natBelow (Nat.pow 2 16)) fun value draft =>
     { draft with causeShare := some value },
   .of "donor_share" (natBelow (Nat.pow 2 16)) fun value draft =>
     { draft with donorShare := some value }]

def StakingPosition.reader : Reader StakingPosition := do
  let draft ← record (PositionDraft.fields "earned" "claimable") {}
  return {
    principal := ← required draft.principal
    earned := ← required draft.second
    claimable := ← required draft.third
    causeShare := UInt16.ofNat (← required draft.causeShare)
    donorShare := UInt16.ofNat (← required draft.donorShare) }

def EndowmentPosition.reader : Reader EndowmentPosition := do
  let draft ← record (PositionDraft.fields "lifetime_yield" "pending_yield") {}
  return {
    principal := ← required draft.principal
    lifetimeYield := ← required draft.second
    pendingYield := ← required draft.third
    causeShare := UInt16.ofNat (← required draft.causeShare)
    donorShare := UInt16.ofNat (← required draft.donorShare) }

/-- Whether a receipt says that its transaction was confirmed. -/
def receiptReader : Reader Bool := do
  let confirmed ← record [.of "confirmed" flag fun value _ => some value] none
  required confirmed

def Edit.reader : Reader Edit :=
  record
    [.of "action" (optionOf Json.Reader.action) fun value edit => { edit with action := value },
     .of "chain_id" (optionOf (natBelow (Nat.pow 2 64))) fun value edit =>
       { edit with chainId := value },
     .of "token" (optionOf Json.Reader.text) fun value edit => { edit with token := value },
     .of "amount" (optionOf Json.Reader.text) fun value edit => { edit with amount := value }]
    {}

end DonationFlow
