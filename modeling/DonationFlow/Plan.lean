import DonationFlow.Call
import DonationFlow.Intent

/-!
# Plans

Which call an intent leads to.  On the settlement chain the action and the
token's shape select it; on a bridged chain there is one call, and only where
the route can carry it.
-/

namespace DonationFlow

/-- The deployed contracts. -/
structure Contracts where
  settlement : Address
  /-- The bridge contract of each chain that has one. -/
  bridges : Table Nat Address := {}
  deriving DecidableEq

namespace Contracts

/-- Who must be allowed to draw tokens for an intent on the chain. -/
def spender? (contracts : Contracts) (chain : Chain) : Option Address :=
  if chain.isBridged then contracts.bridges.get? chain.id else some contracts.settlement

end Contracts

structure Plan where
  request : CallRequest
  bridged : Bool
  deriving DecidableEq, Repr

namespace Plan

/-- The one-time approval of a spender, for the greatest amount. -/
def approval? (token : Token) (spender : Address) : Option CallRequest :=
  token.address.map fun contract => ⟨contract, Word.zero, .approve contract spender Word.top⟩

/-- The native value of a relayed call: the fee, and the amount if it is native. -/
def relayValue (intent : Intent) : Except FlowError Word :=
  if intent.token.isNative then
    match intent.units.add? intent.chain.bridgeFee with
    | some value => .ok value
    | none => .error .zeroAmount
  else .ok intent.chain.bridgeFee

def relayed (intent : Intent) (campaign : Word) (contracts : Contracts) :
    Except FlowError CallRequest :=
  match intent.chain.route, intent.chain.endpoint with
  | .layerZero, some endpoint =>
    match contracts.bridges.get? intent.chain.id with
    | some bridge => do
      let value ← relayValue intent
      return ⟨bridge, value,
        .crossChain endpoint campaign intent.action.code intent.token.address intent.units⟩
    | none => .error (.unsupportedRoute intent.chain.name)
  | _, _ => .error (.unsupportedRoute intent.chain.name)

/-- The contract of a token that is given by a contract call. -/
def contractOf (intent : Intent) : Except FlowError Address :=
  match intent.token.address with
  | some contract => .ok contract
  | none => .error (.unknownToken intent.token.symbol intent.chain.id)

def direct (intent : Intent) (campaign : Word) (settlement : Address) :
    Except FlowError CallRequest :=
  let amount := intent.units
  if intent.token.isNative then
    let call := match intent.action with
      | .donate => Call.donateNative campaign
      | .wealthBuild => .wealthBuildNative campaign
      | .stake => .stakeNative campaign
    .ok ⟨settlement, amount, call⟩
  else if intent.action = .wealthBuild && intent.token.isSettlementCurrency then
    .ok ⟨settlement, Word.zero, .wealthBuildSettlement campaign amount⟩
  else do
    let contract ← contractOf intent
    let call := match intent.action with
      | .donate => Call.donateToken campaign contract amount
      | .wealthBuild => .wealthBuildToken campaign contract amount
      | .stake => .stakeToken campaign contract amount
    return ⟨settlement, Word.zero, call⟩

/-- The call for an intent, or why there is none. -/
def ofIntent (intent : Intent) (campaign : Word) (contracts : Contracts) :
    Except FlowError Plan :=
  if intent.isBridged then
    (relayed intent campaign contracts).map (⟨·, true⟩)
  else
    (direct intent campaign contracts.settlement).map (⟨·, false⟩)

end Plan

end DonationFlow
