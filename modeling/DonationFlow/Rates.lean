import DonationFlow.Amount
import DonationFlow.Table
import DonationFlow.Token

/-!
# Settlement rates

The worth of one whole unit of each token in the settlement currency, and the
estimate shown beside an amount.  The estimate is advice: the amount sent is
always the token's own.
-/

namespace DonationFlow

/-- Rates by symbol in upper case. -/
structure Rates where
  bySymbol : Table String Word := {}
  deriving DecidableEq

namespace Rates

/-- Registers a rate given as decimal text, replacing an earlier one. -/
def withRate (rates : Rates) (symbol perUnit : String) : Rates :=
  ⟨rates.bySymbol.put (Text.upper symbol) (Amount.toUnits perUnit Amount.settlementDecimals)⟩

def rate? (rates : Rates) (symbol : String) : Option Word :=
  rates.bySymbol.get? (Text.upper symbol)

def isEmpty (rates : Rates) : Bool := rates.bySymbol.isEmpty

/-- Rates registered one after the other. -/
def ofList (entries : List (String × String)) : Rates :=
  entries.foldl (fun rates (symbol, perUnit) => rates.withRate symbol perUnit) {}

/-- The worth of `amount` of `token`: itself for the settlement currency, zero
without a rate or when the product leaves the range.  The scale is the power of
ten in word arithmetic. -/
def estimate (rates : Rates) (token : Token) (amount : Word) : Word :=
  if token.isSettlementCurrency then amount
  else match rates.rate? token.symbol with
    | none => Word.zero
    | some rate =>
      match amount.mul? rate with
      | none => Word.zero
      | some worth => worth.quot (Word.wrap (Nat.pow 10 token.decimals.toNat))

end Rates

end DonationFlow
