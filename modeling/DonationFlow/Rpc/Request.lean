import DonationFlow.Http
import DonationFlow.Json.Shape
import DonationFlow.Text.Cut

/-!
# Requests to a node

A request is posted until an answer settles it, five times at most, with pauses
that double.  What was answered, and what is merely a setback, is judged for
each reply alone.
-/

namespace DonationFlow.Rpc

open Http (Line Post Reply)
open Json (Reader)

/-- An answer of the protocol: a result, an error, or neither. -/
structure Answer where
  result : Option Json := none
  error : Option (Int × String) := none

/-- An error under construction. -/
structure ErrorDraft where
  code : Option Int := none
  message : Option String := none

def errorReader : Reader (Int × String) := do
  let draft ← Reader.record
    [.of "code" (Reader.intWithin (-Nat.pow 2 63) (Nat.pow 2 63 - 1)) fun code draft =>
       { draft with code := some code },
     .of "message" Reader.text fun message (draft : ErrorDraft) =>
       { draft with message := some message }]
    {}
  return (← Reader.required draft.code, ← Reader.required draft.message)

/-- How deep a result may nest. -/
def maxDepth : Nat := 126

def Answer.reader : Reader Answer :=
  Reader.record
    [.of "result" (Reader.optionOf (Reader.any maxDepth)) fun result answer =>
       { answer with result },
     .of "error" (Reader.optionOf errorReader) fun error answer => { answer with error }]
    {}

/-- Why another attempt is made. -/
inductive Setback where
  | unreachable
  | rateLimited
  | soft (code : Int) (message : String)
  deriving DecidableEq, Repr

inductive Judgement where
  | settled (outcome : Except FlowError Json)
  | setback (setback : Setback)

/-- An invalid request or an unknown method does not get better. -/
def isHard (code : Int) : Bool := code = -32600 || code = -32601

/-- A reverted call is an answer, not an outage. -/
def isRevert (code : Int) (message : String) : Bool :=
  code = 3 || Text.holds "revert".toList message.toList

def judgeError (method : String) (code : Int) (message : String) : Judgement :=
  if isHard code then .settled (.error (.rpc (.hard code message)))
  else if isRevert code message then .settled (.error (.rpc (.reverted method message)))
  else .setback (.soft code message)

/-- What a reply amounts to; only the rate limit is known by its status. -/
def judge (method : String) : Reply → Judgement
  | .dropped => .setback .unreachable
  | .answered status body =>
    if status = Http.tooManyRequests then .setback .rateLimited
    else match Reader.whole Answer.reader body with
      | .error _ => .settled (.error (.http .unreadable))
      | .ok ⟨result, none⟩ => .settled (.ok (result.getD .null))
      | .ok ⟨_, some (code, message)⟩ => judgeError method code message

def maxAttempts : Nat := 5

/-- The first pause, in milliseconds. -/
def firstPause : Nat := 2000

def maxPause : Nat := 60000

/-- The error after the last attempt. -/
def Setback.final (method : String) (chainId : Nat) : Setback → FlowError
  | unreachable => .http .unreachable
  | rateLimited => .rpc (.exhausted method chainId maxAttempts "rate-limited")
  | soft code message =>
    .rpc (.exhausted method chainId maxAttempts s!"soft error {signedDecimal code} {message}")

/-- Posts the same until it is settled; `spare` attempts are left after this. -/
def attempts (post : Post) (method : String) (chainId : Nat) :
    (spare pause : Nat) → Line → Line × Except FlowError Json
  | 0, _, line =>
    let (line, reply) := line.post post
    match judge method reply with
    | .settled outcome => (line, outcome)
    | .setback setback => (line, .error (setback.final method chainId))
  | spare + 1, pause, line =>
    let (line, reply) := line.post post
    match judge method reply with
    | .settled outcome => (line, outcome)
    | .setback _ =>
      attempts post method chainId spare (min (2 * pause) maxPause) (line.sleep pause)

def body (method : String) (params : Json) : Json :=
  .obj
    [("jsonrpc", .str "2.0"), ("id", .nat 1), ("method", .str method), ("params", params)]

/-- The nodes of the chains, and where positions are kept. -/
structure Client where
  /-- The address of each chain's node. -/
  urls : Table Nat String
  settlement : Address
  settlementChain : Nat

/-- Asks the node of a chain. -/
def Client.request (client : Client) (chainId : Nat) (method : String) (params : Json)
    (line : Line) : Line × Except FlowError Json :=
  match client.urls.get? chainId with
  | none => (line, .error (.config (.noUrl chainId)))
  | some url =>
    attempts ⟨url, body method params⟩ method chainId (maxAttempts - 1) firstPause line

end DonationFlow.Rpc
