import DonationFlow.Flow
import DonationFlow.Wire.Read
import DonationFlow.Wire.Write

/-!
# The service's answers

Status codes and bodies of the requests that a user interface makes.
-/

namespace DonationFlow.Api

structure Response where
  status : Nat
  body : Json

def version : String := "0.1.0"

/-- The status code of a failed request. -/
def statusOf : FlowError → Nat
  | .notConnected => 401
  | .unknownChain _ => 404
  | .unknownToken _ _ => 400
  | .zeroAmount | .unsupportedRoute _ => 422
  | .busy => 409
  | .userRejected => 403
  | .submissionFailed _ | .notMined _ | .http _ | .rpc _ => 502
  | .config _ | .json _ => 500

def failure (error : FlowError) : Response :=
  ⟨statusOf error, .obj [("error", .str error.message)]⟩

def health : Response := ⟨200, .obj [("status", .str "ok"), ("version", .str version)]⟩

def chains : Response :=
  ⟨200, .obj [("count", .nat Chain.all.length), ("chains", .arr (Chain.all.map Chain.toJson))]⟩

def tokens (chainId : Nat) : Response :=
  match Chain.get chainId with
  | .error error => failure error
  | .ok _ =>
    let tokens := Token.listed chainId
    ⟨200, .obj
      [("chain_id", .nat chainId), ("count", .nat tokens.length),
       ("tokens", .arr (tokens.map Token.toJson))]⟩

def state (view : View) : Response := ⟨200, view.toJson⟩

/-- An edit sent as text, which may go on after the edit; a text that is no
edit is answered with a status code alone. -/
def editOf (body : String) : Except Nat Edit :=
  match Json.Reader.leading Edit.reader body with
  | .ok edit => .ok edit
  | .error .malformed => .error 400
  | .error .shape => .error 422

def submission (outcome : String) (hash : Option TxHash) : Response :=
  ⟨200, .obj [("outcome", .str outcome), ("tx_hash", .ofOption TxHash.toJson hash)]⟩

/-- The answer to a request to submit, once the call has ended. -/
def submitted : Answer → Response
  | .confirmed hash => submission "confirmed" (some hash)
  | .superseded | .nothing => submission "superseded" none
  | .failed error => failure error

def watching (value : Bool) : Json := .obj [("watching", .bool value)]

def watchStarted {α : Type} : Except FlowError α → Response
  | .ok _ => ⟨202, watching true⟩
  | .error error => failure error

def watchCancelled : Response := ⟨200, watching false⟩

end DonationFlow.Api
