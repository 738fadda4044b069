import DonationFlow.Address
import DonationFlow.Text.Numeral

/-!
# What can go wrong

Errors are causes; `FlowError.message` is the only place that words them.
-/

namespace DonationFlow

/-- Why a configuration is refused. -/
inductive ConfigFault where
  | missing (key : String)
  | invalid (key raw : String)
  | badEntry (key entry : String)
  | unsupportedChain (key : String) (id : Nat)
  | worthless (symbol rate : String)
  | excessiveFees
  | noSettlementUrl (id : Nat)
  | noUrl (id : Nat)
  | noSettlementCurrency
  | stated (text : String)
  deriving DecidableEq, Repr

/-- Why the relayer did not take a call: it said so, could not be reached, or
answered in a form that names no transaction. -/
inductive SubmissionFault where
  | stated (text : String)
  | unreachable
  | unreadable
  deriving DecidableEq, Repr

/-- Why an exchange over HTTP gave nothing. -/
inductive HttpFault where
  | unreachable
  | unreadable
  deriving DecidableEq, Repr

/-- Why a node's answer is of no use. -/
inductive RpcFault where
  | hard (code : Int) (message : String)
  | reverted (method message : String)
  | exhausted (method : String) (chainId attempts : Nat) (reason : String)
  | noData
  | badHex (fault : Text.HexFault)
  | badBalance (shown : String)
  | noWords (signature : String)
  | fewWords (signature : String) (count : Nat)
  | stated (text : String)
  deriving DecidableEq, Repr

inductive FlowError where
  | notConnected
  | unsupportedRoute (chain : String)
  | userRejected
  | submissionFailed (fault : SubmissionFault)
  | notMined (hash : String)
  | zeroAmount
  | busy
  | unknownChain (id : Nat)
  | unknownToken (symbol : String) (chainId : Nat)
  | config (fault : ConfigFault)
  | http (fault : HttpFault)
  | json (detail : String)
  | rpc (fault : RpcFault)
  deriving DecidableEq, Repr

open Text (decimal)

def ConfigFault.message : ConfigFault → String
  | .missing key => s!"Missing env var: {key}"
  | .invalid key raw => s!"Invalid {key}: {raw}"
  | .badEntry key entry => s!"Invalid {key} entry: {entry}"
  | .unsupportedChain key id => s!"{key}: unsupported chain {decimal id}"
  | .worthless symbol rate => s!"Invalid SETTLEMENT_RATES entry: {symbol}={rate}"
  | .excessiveFees => "WEALTH_BUILD_CAUSE_BPS + PLATFORM_FEE_BPS exceeds 10000"
  | .noSettlementUrl id => s!"RPC_URLS has no entry for the settlement chain {decimal id}"
  | .noUrl id => s!"No RPC URL for chain {decimal id}"
  | .noSettlementCurrency => "settlement chain lists no settlement currency"
  | .stated text => text

def SubmissionFault.message : SubmissionFault → String
  | .stated text => text
  | .unreachable => "the relayer could not be reached"
  | .unreadable => "the relayer named no transaction"

def HttpFault.message : HttpFault → String
  | .unreachable => "no response"
  | .unreadable => "unreadable response"

/-- A number in decimal, with a minus sign if it is negative. -/
def signedDecimal : Int → String
  | .ofNat n => decimal n
  | .negSucc n => "-" ++ decimal (n + 1)

def RpcFault.message : RpcFault → String
  | .hard code message => s!"RPC hard error {signedDecimal code}: {message}"
  | .reverted method message => s!"{method} reverted: {message}"
  | .exhausted method chainId attempts reason =>
    s!"{method} on chain {decimal chainId} gave up after {decimal attempts} attempts: {reason}"
  | .noData => "eth_call returned no data"
  | .badHex fault => s!"eth_call returned bad hex: {fault.message}"
  | .badBalance shown => s!"eth_getBalance returned {shown}"
  | .noWords signature => s!"{signature} returned no data"
  | .fewWords signature count => s!"{signature} returned {decimal count} words, expected 5"
  | .stated text => text

namespace FlowError

def message : FlowError → String
  | notConnected => "No wallet account connected"
  | unsupportedRoute chain => s!"Bridging from {chain} is not available yet"
  | userRejected => "Transaction was rejected in the wallet"
  | submissionFailed fault => s!"Transaction submission failed: {fault.message}"
  | notMined hash => s!"Transaction {hash} was not mined successfully"
  | zeroAmount => "Amount must be greater than zero"
  | busy => "Another transaction is already in progress"
  | unknownChain id => s!"Unknown chain: {decimal id}"
  | unknownToken symbol chainId => s!"Unknown token {symbol} on chain {decimal chainId}"
  | config fault => s!"Configuration error: {fault.message}"
  | http fault => s!"HTTP error: {fault.message}"
  | json detail => s!"JSON error: {detail}"
  | rpc fault => s!"RPC error: {fault.message}"

/-- Errors that the user is expected to resolve before trying again. -/
def isUserInput : FlowError → Bool
  | notConnected | zeroAmount | busy | unknownChain _ | unknownToken _ _ => true
  | _ => false

end FlowError

end DonationFlow
