import DonationFlow.ReadCache

/-!
# A scripted world

A chain with set balances and an executor with scripted outcomes, for
rehearsing the flow without either.
-/

namespace DonationFlow.Rehearsal

inductive ReadKind where
  | balance
  | allowance
  | staking
  | endowment
  deriving DecidableEq, Repr

namespace ReadKind

def name : ReadKind → String
  | balance => "balance"
  | allowance => "allowance"
  | staking => "staking"
  | endowment => "endowment"

def all : List ReadKind := [balance, allowance, staking, endowment]

def named? (name : String) : Option ReadKind := all.find? (·.name = name)

end ReadKind

/-- What the chain would answer; it does not tell owners apart. -/
structure Ledger where
  balances : Table (Nat × String) Word := {}
  allowances : Table (Nat × String × Address) Word := {}
  staking : StakingPosition := {}
  endowment : EndowmentPosition := {}
  /-- The kinds of reads that fail. -/
  down : List ReadKind := []

namespace Ledger

def outcome {α : Type} (ledger : Ledger) (kind : ReadKind) (value : α) : Except FlowError α :=
  if kind ∈ ledger.down then .error (.rpc (.stated s!"{kind.name} down")) else .ok value

def answer (ledger : Ledger) : Read → Landing
  | .balance chainId token owner =>
    let value := (ledger.balances.get? (chainId, token.symbol)).getD Word.zero
    .balance chainId token owner (ledger.outcome .balance value)
  | .allowance chainId token owner spender =>
    let value := (ledger.allowances.get? (chainId, token.symbol, spender)).getD Word.zero
    .allowance chainId token owner spender (ledger.outcome .allowance value)
  | .staking owner campaign =>
    .staking owner campaign (ledger.outcome .staking ledger.staking)
  | .endowment owner campaign =>
    .endowment owner campaign (ledger.outcome .endowment ledger.endowment)

end Ledger

/-- A scripted outcome: accepted or mined, mined without success, or failed. -/
abbrev Verdict := Except FlowError Bool

/-- An executor that answers from a script, or holds a call until its own
outcome is released.  A release is kept, and may come first. -/
structure Executor where
  submitScript : List Verdict := []
  receiptScript : List Verdict := []
  holdSubmits : Bool := false
  holdReceipts : Bool := false
  /-- The calls handed in so far. -/
  handedIn : Nat := 0
  /-- The calls accepted so far; each acceptance gives the next hash. -/
  accepted : Nat := 0
  submitReleases : Table Nat Verdict := {}
  receiptReleases : Table TxHash Verdict := {}
  /-- Held submissions by their number, with the call that waits. -/
  heldSubmits : List (Nat × Nat) := []
  heldReceipts : List (TxHash × Nat) := []

namespace Executor

/-- The hash of value `n`. -/
def hashOf (n : Nat) : TxHash := ⟨n % hashLimit, Nat.mod_lt n (by decide)⟩

/-- Turns a verdict on a submission into its answer. -/
def accept (executor : Executor) : Verdict → Executor × Except FlowError TxHash
  | .ok _ =>
    let n := executor.accepted + 1
    ({ executor with accepted := n }, .ok (hashOf n))
  | .error error => (executor, .error error)

/-- A submission comes in for a call; no answer means that it is held. -/
def submit (executor : Executor) (call : Nat) :
    Executor × Option (Except FlowError TxHash) :=
  let n := executor.handedIn + 1
  let executor := { executor with handedIn := n }
  if executor.holdSubmits then
    match executor.submitReleases.get? n with
    | some verdict =>
      let (executor, answer) := executor.accept verdict
      (executor, some answer)
    | none => ({ executor with heldSubmits := executor.heldSubmits ++ [(n, call)] }, none)
  else
    let (executor, answer) :=
      { executor with submitScript := executor.submitScript.tail }.accept
        (executor.submitScript.headD (.ok true))
    (executor, some answer)

/-- A receipt is asked for; no answer means that the question is held. -/
def receipt (executor : Executor) (hash : TxHash) (call : Nat) : Executor × Option Verdict :=
  if executor.holdReceipts then
    match executor.receiptReleases.get? hash with
    | some verdict => (executor, some verdict)
    | none => ({ executor with heldReceipts := executor.heldReceipts ++ [(hash, call)] }, none)
  else
    ({ executor with receiptScript := executor.receiptScript.tail },
      some (executor.receiptScript.headD (.ok true)))

/-- Releases a submission; it tells the call that waited and its answer. -/
def releaseSubmit (executor : Executor) (n : Nat) (verdict : Verdict) :
    Executor × Option (Nat × Except FlowError TxHash) :=
  let kept := { executor with submitReleases := executor.submitReleases.put n verdict }
  match executor.heldSubmits.find? (·.1 = n) with
  | none => (kept, none)
  | some (_, call) =>
    let (answered, answer) :=
      { kept with heldSubmits := kept.heldSubmits.filter (·.1 ≠ n) }.accept verdict
    (answered, some (call, answer))

/-- Releases a receipt; it tells the calls that waited for it. -/
def releaseReceipt (executor : Executor) (hash : TxHash) (verdict : Verdict) :
    Executor × List Nat :=
  ({ executor with
      receiptReleases := executor.receiptReleases.put hash verdict
      heldReceipts := executor.heldReceipts.filter (·.1 ≠ hash) },
    (executor.heldReceipts.filter (·.1 = hash)).map (·.2))

/-- The call goes away and no longer waits. -/
def forget (executor : Executor) (call : Nat) : Executor :=
  { executor with
    heldSubmits := executor.heldSubmits.filter (·.2 ≠ call)
    heldReceipts := executor.heldReceipts.filter (·.2 ≠ call) }

end Executor

end DonationFlow.Rehearsal
