import DonationFlow.Address
import DonationFlow.Text.Numeral

/-!
# Contract calls

The closed set of calls that are ever handed out.
-/

namespace DonationFlow

inductive Call where
  | approve (token spender : Address) (amount : Word)
  | donateNative (campaign : Word)
  | donateToken (campaign : Word) (token : Address) (amount : Word)
  | wealthBuildNative (campaign : Word)
  | wealthBuildSettlement (campaign amount : Word)
  | wealthBuildToken (campaign : Word) (token : Address) (amount : Word)
  | stakeNative (campaign : Word)
  | stakeToken (campaign : Word) (token : Address) (amount : Word)
  /-- A deposit relayed from another chain; the native asset has no `token`. -/
  | crossChain (endpoint : Nat) (campaign : Word) (action : Nat) (token : Option Address)
      (amount : Word)
  deriving DecidableEq, Repr

namespace Call

/-- The signature of the contract function. -/
def signature : Call → String
  | approve .. => "approve(address,uint256)"
  | donateNative .. => "donateETH(uint256)"
  | donateToken .. => "donate(uint256,address,uint256)"
  | wealthBuildNative .. => "wealthBuildETH(uint256)"
  | wealthBuildSettlement .. => "wealthBuild(uint256,uint256)"
  | wealthBuildToken .. => "wealthBuildWithToken(uint256,address,uint256)"
  | stakeNative .. => "stakeETH(uint256)"
  | stakeToken .. => "stake(uint256,address,uint256)"
  | crossChain _ _ _ none _ => "crossChainActionETH(uint32,uint256,uint8,uint256)"
  | crossChain _ _ _ (some _) _ => "crossChainAction(uint32,uint256,uint8,address,uint256)"

end Call

/-- A call, the contract it goes to and the native value it carries. -/
structure CallRequest where
  target : Address
  value : Word
  call : Call
  deriving DecidableEq, Repr

end DonationFlow
