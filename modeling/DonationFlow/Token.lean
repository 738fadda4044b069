import DonationFlow.Chain
import DonationFlow.Text.Letter

/-!
# Tokens

What can be given on each chain: the native asset first, then the settlement
currency, then further contracts.
-/

namespace DonationFlow

structure Token where
  symbol : String
  /-- The token's contract; the native asset has none. -/
  address : Option Address
  decimals : UInt8
  isNative : Bool
  isSettlementCurrency : Bool
  deriving DecidableEq, Repr

namespace Token

def native (symbol : String) : Token := ⟨symbol, none, 18, true, false⟩

/-- The settlement currency under the contract at `address`. -/
def currency (address : Address) : Token := ⟨"USDC", some address, 6, false, true⟩

def contract (symbol : String) (address : Address) : Token :=
  ⟨symbol, some address, 18, false, false⟩

/-- The tokens taken on a chain; none on an unknown chain. -/
def listed (chainId : Nat) : List Token :=
  if chainId = 8453 then
    [native "ETH",
     currency ⟨0x833589fcd6edb6e08f4c7c32d4f71b54bda02913, by decide⟩,
     contract "WETH" ⟨0x4200000000000000000000000000000000000006, by decide⟩,
     contract "DAI" ⟨0x50c5725949a6f0c72e6c4a641f24049a917db0cb, by decide⟩]
  else if chainId = 1 then
    [native "ETH",
     currency ⟨0xa0b86991c6218b36c1d19d4a2e9eb0ce3606eb48, by decide⟩,
     contract "DAI" ⟨0x6b175474e89094c44da98b954eedeac495271d0f, by decide⟩]
  else if chainId = 42161 then
    [native "ETH", currency ⟨0xaf88d065e77c8cc2239327c5edb3a432268e5831, by decide⟩]
  else if chainId = 10 then
    [native "ETH", currency ⟨0x0b2c639c533813f4aa9d7837caf62653d097ff85, by decide⟩]
  else if chainId = 137 then
    [native "POL", currency ⟨0x3c499c542cef5e3811e1192ce70d8cc03d5c3359, by decide⟩]
  else if chainId = 59144 then
    [native "ETH", currency ⟨0x176211869ca2b568f2a7d4ee941e073a821ee1ff, by decide⟩]
  else if chainId = 43114 then
    [native "AVAX", currency ⟨0xb97ef9ef8734c71904d8002f8b6bc66dd9c48a6e, by decide⟩]
  else []

def find? (chainId : Nat) (symbol : String) : Option Token :=
  (listed chainId).find? (Text.sameLetters ·.symbol symbol)

def get (chainId : Nat) (symbol : String) : Except FlowError Token :=
  match find? chainId symbol with
  | some token => .ok token
  | none => .error (.unknownToken symbol chainId)

/-- The settlement currency as listed on the chain. -/
def settlementCurrency? (chainId : Nat) : Option Token :=
  (listed chainId).find? (·.isSettlementCurrency)

/-- What a newly chosen chain starts with: the same symbol if it lists it, else
its settlement currency. -/
def carryOver? (chainId : Nat) (symbol : String) : Option Token :=
  (find? chainId symbol) <|> (settlementCurrency? chainId) <|> (listed chainId).head?

theorem mem_listed_of_find? {chainId : Nat} {symbol : String} {token : Token}
    (h : find? chainId symbol = some token) :
    token ∈ listed chainId ∧ Text.sameLetters token.symbol symbol = true := by
  have hsymbol := List.find?_some h
  exact ⟨List.mem_of_find?_eq_some h, hsymbol⟩

theorem mem_listed_of_carryOver? {chainId : Nat} {symbol : String} {token : Token}
    (h : carryOver? chainId symbol = some token) : token ∈ listed chainId := by
  simp only [carryOver?, Option.orElse_eq_orElse, Option.orElse_eq_or, Option.or_eq_some_iff] at h
  rcases h with h | ⟨_, h | ⟨_, h⟩⟩
  · exact (mem_listed_of_find? h).1
  · exact List.mem_of_find?_eq_some h
  · exact List.mem_of_head? h

end Token

end DonationFlow
