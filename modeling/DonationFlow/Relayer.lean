import DonationFlow.Rpc.Reads
import DonationFlow.Text.Blank

/-!
# The relayer

The relayer signs and sends the calls it is handed.  Handing one in is a single
exchange that is never repeated; whether it was mined is learnt from the chain.
-/

namespace DonationFlow

open Http (Line Reply)
open Json (Reader)

structure Relayer where
  baseUrl : String
  node : Rpc.Client
  /-- Milliseconds between two lookups of a receipt. -/
  poll : Nat
  /-- Milliseconds after which no further lookup is made. -/
  timeout : Nat

/-- What a relayer says when it takes no call. -/
structure Refusal where
  code : Option String := none
  message : Option String := none
  deriving DecidableEq, Repr

namespace Refusal

def reader : Reader Refusal :=
  Reader.record
    [{ name := "code"
       read := (fun code refusal => { refusal with code }) <$> Reader.optionOf Reader.text
       optional := true },
     { name := "message"
       read := (fun message refusal => { refusal with message }) <$> Reader.optionOf Reader.text
       optional := true }]
    {}

/-- What a text says; nothing if it is no refusal. -/
def ofText (text : String) : Refusal :=
  match Reader.whole reader text with
  | .ok refusal => refusal
  | .error _ => {}

/-- The user's own refusal, which only counts as an error of the client. -/
def isByUser (refusal : Refusal) (status : Nat) : Bool :=
  Http.isClientError status && refusal.code = some "user_rejected"

end Refusal

namespace Relayer

def callsUrl (relayer : Relayer) : String :=
  String.ofList ((relayer.baseUrl.toList.reverse.dropWhile (· = '/')).reverse) ++ "/calls"

def body (chainId : Nat) (request : CallRequest) : Json :=
  .obj
    [("chain_id", .nat chainId), ("to", request.target.toJson), ("value", request.value.toJson),
     ("call", request.call.toJson)]

/-- The transaction that an accepted call became. -/
def hashReader : Reader TxHash := do
  let hash ← Reader.record [.of "hash" Reader.txHash fun hash _ => some hash] none
  Reader.required hash

/-- The error behind a status other than success. -/
def failure (status : Nat) (text : String) : FlowError :=
  let refusal := Refusal.ofText text
  if refusal.isByUser status then .userRejected
  else
    let trimmed := String.ofList (Text.trim text.toList)
    let detail := (refusal.message <|> refusal.code).getD trimmed
    let said := s!"relayer returned {Http.statusLine status}"
    .submissionFailed (.stated (if detail.isEmpty then said else s!"{said}: {detail}"))

def outcomeOf : Reply → Except FlowError TxHash
  | .dropped => .error (.submissionFailed .unreachable)
  | .answered status text =>
    if Http.isSuccess status then
      match Reader.whole hashReader text with
      | .ok hash => .ok hash
      | .error _ => .error (.submissionFailed .unreadable)
    else .error (failure status text)

/-- Hands in a call with one exchange. -/
def handIn (relayer : Relayer) (chainId : Nat) (request : CallRequest) (line : Line) :
    Line × Except FlowError TxHash :=
  let (line, reply) := line.post ⟨relayer.callsUrl, body chainId request⟩
  (line, outcomeOf reply)

/-- Looks the receipt up until it is there or the deadline has passed. -/
def lookups (relayer : Relayer) (chainId : Nat) (hash : TxHash) (deadline : Nat) :
    (fuel : Nat) → Line → Line × Except FlowError Bool
  | 0, line => (line, .error (.notMined hash.text))
  | fuel + 1, line =>
    match relayer.node.receipt chainId hash line with
    | (line, .ok (some confirmed)) => (line, .ok confirmed)
    | (line, _) =>
      if deadline ≤ line.clock then (line, .error (.notMined hash.text))
      else lookups relayer chainId hash deadline fuel (line.sleep relayer.poll)

/-- Lookups that bring the clock to the deadline, or use up the replies. -/
def lookupFuel (relayer : Relayer) (line : Line) : Nat :=
  relayer.timeout / max 1 relayer.poll + line.replies.length + 2

/-- Waits until the transaction is mined, and tells whether it succeeded, where the
clock can show the deadline. -/
def awaitReceipt (relayer : Relayer) (chainId : Nat) (hash : TxHash) (line : Line) :
    Line × Except FlowError Bool :=
  relayer.lookups chainId hash (line.clock + relayer.timeout) (relayer.lookupFuel line) line

/-- Waits on a clock that shows no time after the latest.  A deadline past it cannot
be formed, and the program stops before the first lookup. -/
def await? (relayer : Relayer) (latest chainId : Nat) (hash : TxHash) (line : Line) :
    Option (Line × Except FlowError Bool) :=
  if line.clock + relayer.timeout ≤ latest then some (relayer.awaitReceipt chainId hash line)
  else none

end Relayer

end DonationFlow
