import DonationFlow.Position
import DonationFlow.Table
import DonationFlow.Token

/-!
# The read cache

Balances, allowances and positions are snapshots: each is the value of the
last successful read under its key, and a failed read changes nothing.
-/

namespace DonationFlow

/-- A read of the chain. -/
inductive Read where
  | balance (chainId : Nat) (token : Token) (owner : Address)
  | allowance (chainId : Nat) (token : Token) (owner spender : Address)
  | staking (owner : Address) (campaign : Word)
  | endowment (owner : Address) (campaign : Word)
  deriving DecidableEq, Repr

/-- A native asset is spent without allowance, so that read never leaves. -/
def Read.reachesChain : Read → Bool
  | allowance _ token _ _ => !token.isNative
  | _ => true

/-- A read that has come back. -/
inductive Landing where
  | balance (chainId : Nat) (token : Token) (owner : Address) (outcome : Except FlowError Word)
  | allowance (chainId : Nat) (token : Token) (owner spender : Address)
      (outcome : Except FlowError Word)
  | staking (owner : Address) (campaign : Word) (outcome : Except FlowError StakingPosition)
  | endowment (owner : Address) (campaign : Word) (outcome : Except FlowError EndowmentPosition)

/-- The read that a landing answers. -/
def Landing.read : Landing → Read
  | balance chainId token owner _ => .balance chainId token owner
  | allowance chainId token owner spender _ => .allowance chainId token owner spender
  | staking owner campaign _ => .staking owner campaign
  | endowment owner campaign _ => .endowment owner campaign

/-- What a balance belongs to; the native asset has no contract. -/
structure Holding where
  chainId : Nat
  contract : Option Address
  owner : Address
  deriving DecidableEq, Repr

structure ReadCache where
  balances : Table Holding Word := {}
  allowances : Table (Holding × Address) Word := {}
  staking : Table (Address × Word) StakingPosition := {}
  endowments : Table (Address × Word) EndowmentPosition := {}

namespace ReadCache

def balance (cache : ReadCache) (chainId : Nat) (token : Token) (owner : Address) : Word :=
  (cache.balances.get? ⟨chainId, token.address, owner⟩).getD Word.zero

def allowance (cache : ReadCache) (chainId : Nat) (token : Token) (owner spender : Address) :
    Word :=
  if token.isNative then Word.top
  else (cache.allowances.get? (⟨chainId, token.address, owner⟩, spender)).getD Word.zero

def staking? (cache : ReadCache) (owner : Address) (campaign : Word) : Option StakingPosition :=
  (cache.staking.get? (owner, campaign)).filter StakingPosition.isHeld

def endowment? (cache : ReadCache) (owner : Address) (campaign : Word) :
    Option EndowmentPosition :=
  (cache.endowments.get? (owner, campaign)).filter EndowmentPosition.isHeld

/-- The cache after a read has come back. -/
def land (cache : ReadCache) : Landing → ReadCache
  | .balance chainId token owner (.ok value) =>
    { cache with balances := cache.balances.put ⟨chainId, token.address, owner⟩ value }
  | .allowance chainId token owner spender (.ok value) =>
    if token.isNative then cache
    else
      { cache with
        allowances := cache.allowances.put (⟨chainId, token.address, owner⟩, spender) value }
  | .staking owner campaign (.ok position) =>
    { cache with staking := cache.staking.put (owner, campaign) position }
  | .endowment owner campaign (.ok position) =>
    { cache with endowments := cache.endowments.put (owner, campaign) position }
  | _ => cache

/-- What comes of a refresh: the cache behind it, the reads that it asked of the
chain, and what it answers. -/
structure Refreshed where
  cache : ReadCache
  asked : List Read
  landing : Landing

/-- A refresh keeps what the chain says to the read, which is the landing.  No chain
is asked for the allowance of a native asset. -/
def refresh (cache : ReadCache) (landing : Landing) : Refreshed :=
  match landing with
  | .allowance chainId token owner spender _ =>
    if token.isNative then ⟨cache, [], .allowance chainId token owner spender (.ok Word.top)⟩
    else ⟨cache.land landing, [landing.read], landing⟩
  | _ => ⟨cache.land landing, [landing.read], landing⟩

/-- The cache after one refresh after the other. -/
def refreshAll (cache : ReadCache) (landings : List Landing) : ReadCache :=
  landings.foldl (fun cache landing => (cache.refresh landing).cache) cache

end ReadCache

end DonationFlow
