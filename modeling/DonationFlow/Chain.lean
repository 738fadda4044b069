import DonationFlow.Error

/-!
# Chains

The catalog of the chains a donation can start from.  Exactly one of them is
the settlement chain; value given on another is relayed to it along the
chain's route.
-/

namespace DonationFlow

/-- How value reaches the settlement chain. -/
inductive Route where
  /-- It is there already. -/
  | direct
  /-- By messages between endpoints, where an endpoint is configured. -/
  | layerZero
  /-- Selectable, but no call is known for it. -/
  | wormhole
  deriving DecidableEq, Repr

structure Chain where
  id : Nat
  name : String
  nativeSymbol : String
  route : Route
  /-- The endpoint that the relay's messages leave from. -/
  endpoint : Option Nat
  bridgeSeconds : Nat
  /-- The relay's fee in the smallest unit of the native asset. -/
  bridgeFee : Word
  isSettlement : Bool
  deriving DecidableEq, Repr

namespace Chain

/-- Whether value from this chain has to cross to the settlement chain. -/
def isBridged (chain : Chain) : Bool := chain.route ≠ .direct

def settlementId : Nat := 8453

/-- A thousandth of a whole unit with eighteen decimals. -/
def milli (count : Nat) : Word := Word.wrap (count * Nat.pow 10 15)

/-- The settlement chain. -/
def settlement : Chain where
  id := settlementId
  name := "Base"
  nativeSymbol := "ETH"
  route := .direct
  endpoint := none
  bridgeSeconds := 0
  bridgeFee := Word.zero
  isSettlement := true

/-- A chain whose value is relayed to the settlement chain. -/
def relayed (id : Nat) (name nativeSymbol : String) (route : Route) (endpoint : Option Nat)
    (bridgeSeconds fee : Nat) : Chain where
  id := id
  name := name
  nativeSymbol := nativeSymbol
  route := route
  endpoint := endpoint
  bridgeSeconds := bridgeSeconds
  bridgeFee := milli fee
  isSettlement := false

/-- Every supported chain, the settlement chain first. -/
def all : List Chain :=
  [settlement,
   relayed 1 "Ethereum" "ETH" .layerZero (some 30101) 180 2,
   relayed 42161 "Arbitrum" "ETH" .layerZero (some 30110) 60 1,
   relayed 10 "Optimism" "ETH" .layerZero (some 30111) 60 1,
   relayed 137 "Polygon" "POL" .layerZero (some 30109) 240 500,
   relayed 59144 "Linea" "ETH" .layerZero none 120 1,
   relayed 43114 "Avalanche" "AVAX" .wormhole none 900 20]

def find? (id : Nat) : Option Chain := all.find? (·.id = id)

def get (id : Nat) : Except FlowError Chain :=
  match find? id with
  | some chain => .ok chain
  | none => .error (.unknownChain id)

theorem mem_all_of_find? {id : Nat} {chain : Chain} (h : find? id = some chain) :
    chain ∈ all ∧ chain.id = id := by
  refine ⟨List.mem_of_find?_eq_some h, ?_⟩
  simpa using List.find?_some h

theorem isBridged_iff {chain : Chain} : chain.isBridged = true ↔ chain.route ≠ .direct := by
  simp [isBridged]

end Chain

end DonationFlow
