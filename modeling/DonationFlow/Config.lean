import DonationFlow.Settings

/-!
# Configuration

The program is configured by named texts.  A blank text counts as absent, lists
are written as `key=value,key=value`, and the first fault found is reported.
-/

namespace DonationFlow

/-- A configuration that was read and checked. -/
structure Config where
  /-- The address of each chain's node. -/
  rpcUrls : Table Nat String
  relayerUrl : String
  /-- The account that the relayer signs for. -/
  account : Option Address
  campaign : Word
  contracts : Contracts
  apiPort : Nat
  /-- Seconds between two turns of the background watcher. -/
  pollSeconds : Nat
  /-- Seconds between the two refresh passes after a success. -/
  settleSeconds : Nat
  receiptPollMs : Nat
  receiptTimeoutSeconds : Nat
  /-- The worth of a whole unit of each token, as decimal text. -/
  rates : List (String × String)
  fees : FeeSchedule

namespace Config

def isBlank (text : String) : Bool := (Text.trim text.toList).isEmpty

def trimmed (text : String) : String := String.ofList (Text.trim text.toList)

/-- One entry of a list, trimmed: the key and value around the first `=`. -/
def splitEntry? (entry : List Char) : Option (List Char × List Char) := do
  let (key, value) ← Text.cut? '=' entry
  let (key, value) := (Text.trim key, Text.trim value)
  if key.isEmpty || value.isEmpty then none else some (key, value)

def readEntry (name : String) (entry : List Char) : Except ConfigFault (String × String) :=
  match splitEntry? entry with
  | some (key, value) => .ok (String.ofList key, String.ofList value)
  | none => .error (.badEntry name (String.ofList entry))

/-- The pairs of a list; blank entries are no entries. -/
def pairs (name text : String) : Except ConfigFault (List (String × String)) :=
  (((Text.pieces ',' text.toList).map Text.trim).filter (!·.isEmpty)).mapM (readEntry name)

/-- A trimmed text read as a value. -/
def parse {α : Type} (read : String → Option α) (name raw : String) : Except ConfigFault α :=
  match read (trimmed raw) with
  | some value => .ok value
  | none => .error (.invalid name raw)

/-- The id of a chain from the catalog. -/
def chainId (name raw : String) : Except ConfigFault Nat := do
  let id ← parse (Text.counter? (Nat.pow 2 64)) name raw
  if (Chain.find? id).isSome then return id else throw (.unsupportedChain name id)

def urlEntry (name : String) (pair : String × String) : Except ConfigFault (Nat × String) := do
  return (← chainId name pair.1, pair.2)

def bridgeEntry (name : String) (pair : String × String) :
    Except ConfigFault (Nat × Address) := do
  let id ← chainId name pair.1
  return (id, ← parse Address.parse? name pair.2)

/-- A rate that is worth something. -/
def rateEntry (pair : String × String) : Except ConfigFault (String × String) :=
  if (Amount.toUnits pair.2 Amount.settlementDecimals).isZero then
    .error (.worthless pair.1 pair.2)
  else .ok pair

section Load

variable (lookup : String → Option String)

def given? (name : String) : Option String := (lookup name).filter (!isBlank ·)

def required (name : String) : Except ConfigFault String :=
  match given? lookup name with
  | some value => .ok value
  | none => .error (.missing name)

def listed {α : Type} (read : String × String → Except ConfigFault α) (name text : String) :
    Except ConfigFault (List α) := do
  (← pairs name text).mapM read

def orDefault {α : Type} (read : String → Option α) (name default : String) :
    Except ConfigFault α :=
  parse read name ((given? lookup name).getD default)

/-- A number of basis points. -/
def bps? (text : String) : Option UInt16 := UInt16.ofNat <$> Text.counter? (Nat.pow 2 16) text

def optionalAccount : Except ConfigFault (Option Address) :=
  match given? lookup "ACCOUNT" with
  | some raw => some <$> parse Address.parse? "ACCOUNT" raw
  | none => .ok none

/-- What the texts say, each for itself. -/
def read : Except ConfigFault Config := do
  let urls ← listed (urlEntry "RPC_URLS") "RPC_URLS" (← required lookup "RPC_URLS")
  let bridges ← listed (bridgeEntry "BRIDGE_CONTRACTS") "BRIDGE_CONTRACTS"
    ((given? lookup "BRIDGE_CONTRACTS").getD "")
  let rates ← listed rateEntry "SETTLEMENT_RATES"
    ((given? lookup "SETTLEMENT_RATES").getD "")
  let relayerUrl ← required lookup "RELAYER_URL"
  let account ← optionalAccount lookup
  let campaign ← orDefault lookup Text.prefixedWord? "CAMPAIGN_ID" "0"
  let settlement ← parse Address.parse? "SETTLEMENT_CONTRACT"
    (← required lookup "SETTLEMENT_CONTRACT")
  let apiPort ← orDefault lookup (Text.counter? (Nat.pow 2 16)) "API_PORT" "3002"
  let pollSeconds ← orDefault lookup (Text.counter? (Nat.pow 2 64)) "POLL_INTERVAL_SECS" "5"
  let settleSeconds ← orDefault lookup (Text.counter? (Nat.pow 2 64)) "REFRESH_SETTLE_SECS" "4"
  let receiptPollMs ← orDefault lookup (Text.counter? (Nat.pow 2 64)) "RECEIPT_POLL_MS" "1500"
  let receiptTimeoutSeconds ←
    orDefault lookup (Text.counter? (Nat.pow 2 64)) "RECEIPT_TIMEOUT_SECS" "600"
  let causeBps ← orDefault lookup bps? "WEALTH_BUILD_CAUSE_BPS" "7800"
  let platformFeeBps ← orDefault lookup bps? "PLATFORM_FEE_BPS" "200"
  return {
    rpcUrls := Table.ofList urls
    relayerUrl, account, campaign
    contracts := { settlement, bridges := Table.ofList bridges }
    apiPort, pollSeconds, settleSeconds, receiptPollMs, receiptTimeoutSeconds, rates
    fees := { causeBps, platformFeeBps } }

/-- What the texts say, if the program can run with it. -/
def load : Except ConfigFault Config := do
  let config ← read lookup
  if ¬config.fees.IsValid then throw .excessiveFees
  if !config.rpcUrls.contains Chain.settlementId then throw (.noSettlementUrl Chain.settlementId)
  return config

end Load

/-- The settings of a flow under this configuration. -/
def settings (config : Config) : Settings where
  campaign := config.campaign
  contracts := config.contracts
  rates := Rates.ofList config.rates
  fees := config.fees
  settleDelay := 1000 * config.settleSeconds

/-- Milliseconds between two turns of the background watcher. -/
def pollInterval (config : Config) : Nat := 1000 * config.pollSeconds

/-- Milliseconds after which a transaction counts as not mined. -/
def receiptTimeout (config : Config) : Nat := 1000 * config.receiptTimeoutSeconds

end Config

end DonationFlow
