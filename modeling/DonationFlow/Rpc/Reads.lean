import DonationFlow.CallData
import DonationFlow.Rpc.Request
import DonationFlow.Wire.Write

/-!
# Reads of a chain

Balances, allowances, positions and receipts, each by one request to a node.
-/

namespace DonationFlow.Rpc

open Http (Line)

/-- The text without the marks `0x` that it starts with. -/
def stripMarks : List Char → List Char
  | '0' :: 'x' :: rest => stripMarks rest
  | text => text

/-- The bytes that a contract call returned. -/
def returned : Json → Except FlowError (List UInt8)
  | .str text =>
    match Text.bytesOfHex (String.ofList (stripMarks text.toList)) with
    | .ok bytes => .ok bytes
    | .error fault => .error (.rpc (.badHex fault))
  | _ => .error (.rpc .noData)

def firstWord (signature : String) : List Word → Except FlowError Word
  | word :: _ => .ok word
  | [] => .error (.rpc (.noWords signature))

/-- A share in basis points, the greatest one if it is out of range. -/
def share (word : Word) : UInt16 := UInt16.ofNat (min word.toNat 65535)

/-- The first five words, as three amounts and two shares. -/
def position {α : Type} (signature : String) (build : Word → Word → Word → UInt16 → UInt16 → α) :
    List Word → Except FlowError α
  | first :: second :: third :: cause :: donor :: _ =>
    .ok (build first second third (share cause) (share donor))
  | words => .error (.rpc (.fewWords signature words.length))

/-- The native balance that a node answered. -/
def nativeBalance (result : Json) : Except FlowError Word :=
  match result.text?.bind Text.quantity? with
  | some balance => .ok balance
  | none => .error (.rpc (.badBalance result.render))

/-- Whether the status of a receipt says that the transaction succeeded. -/
def statusConfirms : Json → Except FlowError Bool
  | .null => .ok false
  | .str text => .ok (Text.quantity? text = Word.ofNat? 1)
  | _ => .error (.json "invalid receipt status")

/-- Whether a receipt confirms its transaction; nothing while it is not mined. -/
def receiptOf : Json → Except FlowError (Option Bool)
  | .null => .ok none
  | .obj entries => some <$> statusConfirms (((Json.obj entries).lookUp? "status").getD .null)
  | .arr [status] => some <$> statusConfirms status
  | _ => .error (.json "invalid receipt")

def balanceOf : String := "balanceOf(address)"

def allowanceOf : String := "allowance(address,address)"

def stakingPosition : String := "stakingPosition(address,uint256)"

def endowmentPosition : String := "endowmentPosition(address,uint256)"

namespace Client

variable (client : Client)

/-- The words that a contract function returns. -/
def callWords (chainId : Nat) (contract : Address) (signature : String) (arguments : List Word)
    (line : Line) : Line × Except FlowError (List Word) :=
  let data := Text.hexBytes (CallData.encode signature arguments)
  let call := Json.obj
    [("to", contract.toJson), ("data", .str (String.ofList ('0' :: 'x' :: data)))]
  let (line, outcome) := client.request chainId "eth_call" (.arr [call, .str "latest"]) line
  (line, (outcome.bind returned).map CallData.words)

def balance (chainId : Nat) (token : Token) (owner : Address) (line : Line) :
    Line × Except FlowError Word :=
  match token.address with
  | none =>
    let (line, outcome) :=
      client.request chainId "eth_getBalance" (.arr [owner.toJson, .str "latest"]) line
    (line, outcome.bind nativeBalance)
  | some contract =>
    let (line, outcome) := client.callWords chainId contract balanceOf [owner.word] line
    (line, outcome.bind (firstWord balanceOf))

/-- The native asset is drawn without limit, and nobody is asked. -/
def allowance (chainId : Nat) (token : Token) (owner spender : Address) (line : Line) :
    Line × Except FlowError Word :=
  match token.address with
  | none => (line, .ok Word.top)
  | some contract =>
    let (line, outcome) :=
      client.callWords chainId contract allowanceOf [owner.word, spender.word] line
    (line, outcome.bind (firstWord allowanceOf))

def positionWords (signature : String) (owner : Address) (campaign : Word) (line : Line) :
    Line × Except FlowError (List Word) :=
  client.callWords client.settlementChain client.settlement signature [owner.word, campaign] line

def staking (owner : Address) (campaign : Word) (line : Line) :
    Line × Except FlowError StakingPosition :=
  let (line, outcome) := client.positionWords stakingPosition owner campaign line
  (line, outcome.bind (position stakingPosition StakingPosition.mk))

def endowment (owner : Address) (campaign : Word) (line : Line) :
    Line × Except FlowError EndowmentPosition :=
  let (line, outcome) := client.positionWords endowmentPosition owner campaign line
  (line, outcome.bind (position endowmentPosition EndowmentPosition.mk))

/-- The receipt of a transaction. -/
def receipt (chainId : Nat) (hash : TxHash) (line : Line) :
    Line × Except FlowError (Option Bool) :=
  let (line, outcome) :=
    client.request chainId "eth_getTransactionReceipt" (.arr [hash.toJson]) line
  (line, outcome.bind receiptOf)

end Client

end DonationFlow.Rpc
