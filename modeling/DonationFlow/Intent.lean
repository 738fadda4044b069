import DonationFlow.Rates

/-!
# Intents

What the user is about to give, and edits of it.
-/

namespace DonationFlow

inductive Action where
  | donate
  | wealthBuild
  | stake
  deriving DecidableEq, Repr

namespace Action

/-- The code that the bridge contract understands. -/
def code : Action → Nat
  | donate => 0
  | wealthBuild => 1
  | stake => 2

/-- The word for a deposit of this kind in a notice. -/
def noun : Action → String
  | donate => "Donation"
  | wealthBuild => "Wealth-build deposit"
  | stake => "Stake"

end Action

structure Intent where
  action : Action
  token : Token
  chain : Chain
  /-- The amount as typed. -/
  text : String
  /-- The amount in the token's smallest unit, zero if the text writes none. -/
  units : Word
  deriving DecidableEq, Repr

namespace Intent

/-- An intent without amount. -/
def blank (action : Action) (chain : Chain) (token : Token) : Intent :=
  ⟨action, token, chain, "", Word.zero⟩

/-- A donation of the settlement currency on the settlement chain. -/
def default : Intent :=
  let chain := Chain.settlement
  blank .donate chain ((Token.settlementCurrency? chain.id).getD (Token.native chain.nativeSymbol))

def withAmount (intent : Intent) (text : String) : Intent :=
  { intent with text, units := Amount.toUnits text intent.token.decimals }

def clearAmount (intent : Intent) : Intent :=
  { intent with text := "", units := Word.zero }

def isBridged (intent : Intent) : Bool := intent.chain.isBridged

end Intent

/-- A partial edit; an absent field stays as it is. -/
structure Edit where
  action : Option Action := none
  chainId : Option Nat := none
  token : Option String := none
  amount : Option String := none
  deriving DecidableEq, Repr

namespace Edit

/-- The chain, token and action that an edit of the intent leads to. -/
def target (edit : Edit) (intent : Intent) : Except FlowError (Action × Chain × Token) := do
  let chain ← match edit.chainId with
    | some id => Chain.get id
    | none => pure intent.chain
  let token ← match edit.token with
    | some symbol => Token.get chain.id symbol
    | none =>
      if chain.id = intent.chain.id then pure intent.token
      else match Token.carryOver? chain.id intent.token.symbol with
        | some token => pure token
        | none => throw (.unknownToken intent.token.symbol chain.id)
  return (edit.action.getD intent.action, chain, token)

/-- Card funding arrives as settlement currency on the settlement chain. -/
def useSettlementCurrency : Except FlowError Edit :=
  match Token.settlementCurrency? Chain.settlementId with
  | some token => .ok { chainId := some Chain.settlementId, token := some token.symbol }
  | none => .error (.config .noSettlementCurrency)

end Edit

end DonationFlow
