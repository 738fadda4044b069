import DonationFlow.Json.Value
import DonationFlow.View

/-!
# Domain values as JSON

Words are written as minimal hexadecimal numbers, addresses and hashes with
all their digits, names in lower case with underscores.
-/

namespace DonationFlow

def Word.toJson (word : Word) : Json := .str (Text.hexNumber word.toNat)

def Address.toJson (address : Address) : Json := .str address.text

def TxHash.toJson (hash : TxHash) : Json := .str hash.text

def Action.name : Action → String
  | donate => "donate"
  | wealthBuild => "wealth_build"
  | stake => "stake"

def Status.name : Status → String
  | idle => "idle"
  | approving => "approving"
  | approved => "approved"
  | pending => "pending"
  | success => "success"
  | error => "error"

def BridgeStatus.name : BridgeStatus → String
  | idle => "idle"
  | bridging => "bridging"
  | confirming => "confirming"
  | swapping => "swapping"
  | complete => "complete"
  | failed => "failed"

def Route.name : Route → String
  | direct => "none"
  | layerZero => "layer_zero"
  | wormhole => "wormhole"

def Chain.toJson (chain : Chain) : Json :=
  .obj
    [("id", .nat chain.id),
     ("name", .str chain.name),
     ("native_symbol", .str chain.nativeSymbol),
     ("bridge_protocol", .str chain.route.name),
     ("endpoint_id", .ofOption .nat chain.endpoint),
     ("estimated_bridge_secs", .nat chain.bridgeSeconds),
     ("estimated_bridge_fee", chain.bridgeFee.toJson),
     ("is_settlement_chain", .bool chain.isSettlement)]

def Token.toJson (token : Token) : Json :=
  .obj
    [("symbol", .str token.symbol),
     ("address", .ofOption Address.toJson token.address),
     ("decimals", .nat token.decimals.toNat),
     ("is_native", .bool token.isNative),
     ("is_settlement_currency", .bool token.isSettlementCurrency)]

def Intent.toJson (intent : Intent) : Json :=
  .obj
    [("action", .str intent.action.name),
     ("token", intent.token.toJson),
     ("source_chain", intent.chain.toJson),
     ("raw_amount_text", .str intent.text),
     ("parsed_amount", intent.units.toJson)]

/-- The entries of a contract call: the function and its arguments. -/
def Call.entries : Call → List (String × Json)
  | approve token spender amount =>
    [("function", .str "approve"), ("token", token.toJson), ("spender", spender.toJson),
     ("amount", amount.toJson)]
  | donateNative campaign => [("function", .str "donate_native"), ("campaign_id", campaign.toJson)]
  | donateToken campaign token amount =>
    [("function", .str "donate_erc20"), ("campaign_id", campaign.toJson),
     ("token", token.toJson), ("amount", amount.toJson)]
  | wealthBuildNative campaign =>
    [("function", .str "wealth_build_native"), ("campaign_id", campaign.toJson)]
  | wealthBuildSettlement campaign amount =>
    [("function", .str "wealth_build_settlement"), ("campaign_id", campaign.toJson),
     ("amount", amount.toJson)]
  | wealthBuildToken campaign token amount =>
    [("function", .str "wealth_build_erc20"), ("campaign_id", campaign.toJson),
     ("token", token.toJson), ("amount", amount.toJson)]
  | stakeNative campaign => [("function", .str "stake_native"), ("campaign_id", campaign.toJson)]
  | stakeToken campaign token amount =>
    [("function", .str "stake_erc20"), ("campaign_id", campaign.toJson),
     ("token", token.toJson), ("amount", amount.toJson)]
  | crossChain endpoint campaign action token amount =>
    [("function", .str "cross_chain_action"), ("endpoint_id", .nat endpoint),
     ("campaign_id", campaign.toJson), ("action_code", .nat action),
     ("token", .ofOption Address.toJson token), ("amount", amount.toJson)]

def Call.toJson (call : Call) : Json := .obj call.entries

def CallRequest.toJson (request : CallRequest) : Json :=
  .obj
    [("to", request.target.toJson), ("value", request.value.toJson), ("call", request.call.toJson)]

def StakingPosition.toJson (position : StakingPosition) : Json :=
  .obj
    [("principal", position.principal.toJson),
     ("earned", position.earned.toJson),
     ("claimable", position.claimable.toJson),
     ("cause_share", .nat position.causeShare.toNat),
     ("donor_share", .nat position.donorShare.toNat)]

def EndowmentPosition.toJson (position : EndowmentPosition) : Json :=
  .obj
    [("principal", position.principal.toJson),
     ("lifetime_yield", position.lifetimeYield.toJson),
     ("pending_yield", position.pendingYield.toJson),
     ("cause_share", .nat position.causeShare.toNat),
     ("donor_share", .nat position.donorShare.toNat)]

def FeeSplit.toJson (split : FeeSplit) : Json :=
  .obj
    [("cause", split.cause.toJson),
     ("principal", split.principal.toJson),
     ("platform_fee", split.platformFee.toJson)]

def SplitTexts.toJson (split : SplitTexts) : Json :=
  .obj
    [("cause", .str split.cause),
     ("principal", .str split.principal),
     ("platform_fee", .str split.platformFee)]

def Notice.toJson : Notice → Json
  | confirmed message hash =>
    .obj [("kind", .str "confirmed"), ("message", .str message), ("tx_hash", hash.toJson)]
  | failed message hash =>
    .obj
      [("kind", .str "failed"), ("message", .str message),
       ("tx_hash", .ofOption TxHash.toJson hash)]

def Event.toJson : Event → Json
  | .status value => .obj [("type", .str "status"), ("value", .str value.name)]
  | .bridge value => .obj [("type", .str "bridge"), ("value", .str value.name)]
  | .notice value => .obj [("type", .str "notification"), ("value", value.toJson)]

def View.toJson (view : View) : Json :=
  .obj
    [("intent", view.intent.toJson),
     ("status", .str view.status.name),
     ("bridge_status", .str view.bridge.name),
     ("bridge_message", .str view.bridge.describe),
     ("needs_approval", .bool view.needsApproval),
     ("connected", .bool view.connected),
     ("balance", .str view.balance),
     ("settlement_estimate", .str view.settlementEstimate),
     ("fee_split", .ofOption SplitTexts.toJson view.split),
     ("last_error", .ofOption (.str ·.message) view.lastError),
     ("staking", .ofOption StakingPosition.toJson view.staking),
     ("endowment", .ofOption EndowmentPosition.toJson view.endowment)]

end DonationFlow
