import DonationFlow.Desk.Submit
import DonationFlow.Proofs.Intent

/-!
# What a plan is made of

An intent is planned in one of four ways: as a gift of the native asset, as a
gift of the settlement currency that needs no contract named, as a gift of
another contract's token, or as a relayed call.  All that is said of plans is
read off these four; a plan goes to the contract that must be allowed to draw
the tokens, and moves the amount of its intent.
-/

namespace DonationFlow

/-- The amount that a call moves: the one it names, else the native value. -/
def CallRequest.amount (request : CallRequest) : Word :=
  match request.call with
  | .approve _ _ amount | .donateToken _ _ amount | .wealthBuildSettlement _ amount
  | .wealthBuildToken _ _ amount | .stakeToken _ _ amount | .crossChain _ _ _ _ amount => amount
  | .donateNative _ | .wealthBuildNative _ | .stakeNative _ => request.value

namespace Call

/-- The action that a call is for; an approval is for none. -/
def action? : Call → Option Action
  | approve .. => none
  | donateNative _ | donateToken .. => some .donate
  | wealthBuildNative _ | wealthBuildSettlement .. | wealthBuildToken .. => some .wealthBuild
  | stakeNative _ | stakeToken .. => some .stake
  | crossChain _ _ code _ _ => [Action.donate, .wealthBuild, .stake].find? (·.code = code)

/-- The contract of the token that a call for the chain moves; the native asset
has none. -/
def contractOn (chainId : Nat) : Call → Option Address
  | donateNative _ | wealthBuildNative _ | stakeNative _ => none
  | wealthBuildSettlement .. => (Token.settlementCurrency? chainId).bind (·.address)
  | approve token _ _ | donateToken _ token _ | wealthBuildToken _ token _
  | stakeToken _ token _ => some token
  | crossChain _ _ _ token _ => token

end Call

/-- Calls for the chain can be made: it is the settlement chain, or a relay with
an endpoint and a bridge contract leads there. -/
def Contracts.Reaches (contracts : Contracts) (chain : Chain) : Prop :=
  chain = Chain.settlement ∨
    chain.route = .layerZero ∧ chain.endpoint ≠ none ∧ contracts.bridges.get? chain.id ≠ none

namespace Plan

/-- The call that gives the native asset on the settlement chain. -/
def nativeCall (campaign : Word) : Action → Call
  | .donate => .donateNative campaign
  | .wealthBuild => .wealthBuildNative campaign
  | .stake => .stakeNative campaign

/-- The call that gives the token of a contract on the settlement chain. -/
def tokenCall (campaign : Word) (contract : Address) (amount : Word) : Action → Call
  | .donate => .donateToken campaign contract amount
  | .wealthBuild => .wealthBuildToken campaign contract amount
  | .stake => .stakeToken campaign contract amount

/-- The ways an intent can be planned. -/
inductive Plans (intent : Intent) (campaign : Word) (contracts : Contracts) : Plan → Prop
  | native (hbridged : intent.isBridged = false) (hnative : intent.token.isNative = true) :
      Plans intent campaign contracts
        ⟨⟨contracts.settlement, intent.units, nativeCall campaign intent.action⟩, false⟩
  | currency (hbridged : intent.isBridged = false) (hnative : intent.token.isNative = false)
      (haction : intent.action = .wealthBuild)
      (hcurrency : intent.token.isSettlementCurrency = true) :
      Plans intent campaign contracts
        ⟨⟨contracts.settlement, Word.zero, .wealthBuildSettlement campaign intent.units⟩, false⟩
  | token {contract : Address} (hbridged : intent.isBridged = false)
      (hnative : intent.token.isNative = false)
      (hother : intent.action = .wealthBuild → intent.token.isSettlementCurrency = false)
      (hcontract : intent.token.address = some contract) :
      Plans intent campaign contracts
        ⟨⟨contracts.settlement, Word.zero, tokenCall campaign contract intent.units intent.action⟩,
          false⟩
  | relayed {endpoint : Nat} {bridge : Address} {value : Word}
      (hroute : intent.chain.route = .layerZero) (hendpoint : intent.chain.endpoint = some endpoint)
      (hbridge : contracts.bridges.get? intent.chain.id = some bridge)
      (hvalue : relayValue intent = .ok value) :
      Plans intent campaign contracts
        ⟨⟨bridge, value, .crossChain endpoint campaign intent.action.code intent.token.address
          intent.units⟩, true⟩

section Planning

variable {intent other : Intent} {campaign : Word} {contracts : Contracts} {plan : Plan}

theorem plans_of_direct {request : CallRequest} (hbridged : intent.isBridged = false)
    (h : direct intent campaign contracts.settlement = .ok request) :
    Plans intent campaign contracts ⟨request, false⟩ := by
  unfold direct at h
  cases hnative : intent.token.isNative with
  | true =>
    simp only [hnative, if_true, Except.ok.injEq] at h
    rw [← h]
    exact .native hbridged hnative
  | false =>
    by_cases hcurrency : intent.action = .wealthBuild ∧ intent.token.isSettlementCurrency = true
    · simp only [hnative, hcurrency, Bool.false_eq_true, if_false, decide_true, Bool.and_self,
        if_true, Except.ok.injEq] at h
      rw [← h]
      exact .currency hbridged hnative hcurrency.1 hcurrency.2
    · have hother : intent.action = .wealthBuild → intent.token.isSettlementCurrency = false :=
        fun haction => Bool.eq_false_iff.2 fun htrue => hcurrency ⟨haction, htrue⟩
      simp only [hnative, Bool.false_eq_true, if_false, Bool.and_eq_true, decide_eq_true_eq,
        hcurrency, contractOf] at h
      cases hcontract : intent.token.address with
      | none =>
        rw [hcontract] at h
        cases h
      | some contract =>
        simp only [hcontract, bind, Except.bind, pure, Except.pure, Except.ok.injEq] at h
        rw [← h]
        exact .token hbridged hnative hother hcontract

theorem plans_of_relayed {request : CallRequest}
    (h : Plan.relayed intent campaign contracts = .ok request) :
    Plans intent campaign contracts ⟨request, true⟩ := by
  unfold Plan.relayed at h
  split at h
  · rename_i endpoint hroute hendpoint
    split at h
    · rename_i bridge hbridge
      cases hvalue : relayValue intent with
      | error error => simp [hvalue, bind, Except.bind] at h
      | ok value =>
        simp only [hvalue, bind, Except.bind, pure, Except.pure, Except.ok.injEq] at h
        rw [← h]
        exact .relayed hroute hendpoint hbridge hvalue
    · cases h
  · cases h

theorem direct_of_plans (hbridged : intent.isBridged = false)
    (h : Plans intent campaign contracts plan) :
    direct intent campaign contracts.settlement = .ok plan.request ∧ plan.bridged = false := by
  cases h with
  | native _ hnative =>
    refine ⟨?_, rfl⟩
    simp only [direct, hnative, if_true]
    cases intent.action <;> rfl
  | currency _ hnative haction hcurrency => simp [direct, hnative, haction, hcurrency]
  | token _ hnative hother hcontract =>
    have hnot : ¬(intent.action = .wealthBuild ∧ intent.token.isSettlementCurrency = true) := by
      rintro ⟨haction, hcurrency⟩
      rw [hother haction] at hcurrency
      cases hcurrency
    refine ⟨?_, rfl⟩
    simp only [direct, hnative, Bool.false_eq_true, if_false, Bool.and_eq_true, decide_eq_true_eq,
      hnot, contractOf, hcontract]
    cases intent.action <;> rfl
  | relayed hroute =>
    have hcrosses : intent.isBridged = true := by simp [Intent.isBridged, Chain.isBridged, hroute]
    rw [hcrosses] at hbridged
    cases hbridged

theorem relayed_of_plans (hbridged : intent.isBridged = true)
    (h : Plans intent campaign contracts plan) :
    Plan.relayed intent campaign contracts = .ok plan.request ∧ plan.bridged = true := by
  cases h with
  | native hdirect | currency hdirect | token hdirect =>
    rw [hbridged] at hdirect
    cases hdirect
  | relayed hroute hendpoint hbridge hvalue =>
    refine ⟨?_, rfl⟩
    simp only [Plan.relayed, hroute, hendpoint, hbridge, hvalue]
    rfl

/-- Planning goes one of the four ways, or fails. -/
theorem ofIntent_eq_ok_iff :
    ofIntent intent campaign contracts = .ok plan ↔ Plans intent campaign contracts plan := by
  unfold ofIntent
  cases hbridged : intent.isBridged with
  | true =>
    constructor
    · intro h
      cases hrelayed : Plan.relayed intent campaign contracts with
      | error error => simp [hrelayed, Except.map] at h
      | ok request =>
        simp only [hrelayed, Except.map, if_true, Except.ok.injEq] at h
        rw [← h]
        exact plans_of_relayed hrelayed
    · intro h
      obtain ⟨hrelayed, hflag⟩ := relayed_of_plans hbridged h
      rw [if_pos rfl, hrelayed, Except.map, ← hflag]
  | false =>
    constructor
    · intro h
      cases hdirect : direct intent campaign contracts.settlement with
      | error error => simp [hdirect, Except.map] at h
      | ok request =>
        simp only [hdirect, Except.map, Bool.false_eq_true, if_false, Except.ok.injEq] at h
        rw [← h]
        exact plans_of_direct hbridged hdirect
    · intro h
      obtain ⟨hdirect, hflag⟩ := direct_of_plans hbridged h
      rw [if_neg Bool.false_ne_true, hdirect, Except.map, ← hflag]

/-- A plan goes to the contract that draws the tokens. -/
theorem spender?_of_ofIntent (h : ofIntent intent campaign contracts = .ok plan) :
    contracts.spender? intent.chain = some plan.request.target := by
  unfold Contracts.spender?
  cases ofIntent_eq_ok_iff.1 h with
  | native hbridged | currency hbridged | token hbridged =>
    rw [Intent.isBridged] at hbridged
    rw [hbridged]
    rfl
  | relayed hroute _ hbridge =>
    rw [if_pos (Chain.isBridged_iff.2 (by rw [hroute]; simp))]
    exact hbridge

/-- A plan is for a relayed call exactly if the chain of its intent is bridged. -/
theorem bridged_of_ofIntent (h : ofIntent intent campaign contracts = .ok plan) :
    plan.bridged = intent.isBridged := by
  have hplans := ofIntent_eq_ok_iff.1 h
  cases hbridged : intent.isBridged with
  | true => exact (relayed_of_plans hbridged hplans).2
  | false => exact (direct_of_plans hbridged hplans).2

/-- A plan moves the amount of its intent. -/
theorem amount_of_ofIntent (h : ofIntent intent campaign contracts = .ok plan) :
    plan.request.amount = intent.units := by
  cases ofIntent_eq_ok_iff.1 h with
  | native | token =>
    cases haction : intent.action <;> simp only [nativeCall, tokenCall] <;> rfl
  | currency | relayed => rfl

/-- Akin intents of one amount have one plan. -/
theorem ofIntent_congr (hakin : other.Akin intent) (hunits : other.units = intent.units) :
    ofIntent other campaign contracts = ofIntent intent campaign contracts := by
  obtain ⟨action, token, chain, text, units⟩ := intent
  obtain ⟨_, _, _, otherText, _⟩ := other
  obtain ⟨rfl, rfl, rfl⟩ := hakin
  obtain rfl := hunits
  rfl

/-- Akin intents are planned alike exactly if they are for one amount. -/
theorem request_eq_iff {otherPlan : Plan} (hakin : other.Akin intent)
    (h : ofIntent intent campaign contracts = .ok plan)
    (hother : ofIntent other campaign contracts = .ok otherPlan) :
    otherPlan.request = plan.request ↔ other.units = intent.units := by
  constructor
  · intro heq
    rw [← amount_of_ofIntent h, ← amount_of_ofIntent hother, heq]
  · intro hunits
    rw [ofIntent_congr hakin hunits, h] at hother
    rw [Except.ok.inj hother]

/-- Akin intents are planned to one contract. -/
theorem target_eq_of_akin {otherPlan : Plan} (hakin : other.Akin intent)
    (h : ofIntent intent campaign contracts = .ok plan)
    (hother : ofIntent other campaign contracts = .ok otherPlan) :
    otherPlan.request.target = plan.request.target := by
  have hspender := spender?_of_ofIntent hother
  rw [hakin.chain, spender?_of_ofIntent h] at hspender
  exact (Option.some.inj hspender).symm

/-- Once a gift of a contract's token is planned, it is so for any amount. -/
theorem exists_ofIntent_of_akin (h : ofIntent intent campaign contracts = .ok plan)
    (hnative : intent.token.isNative = false) (hakin : other.Akin intent) :
    ∃ otherPlan, ofIntent other campaign contracts = .ok otherPlan := by
  simp only [ofIntent_eq_ok_iff] at h ⊢
  obtain ⟨haction, htoken, hchain⟩ := hakin
  have hnativeOther : other.token.isNative = false := by rw [htoken, hnative]
  have hbridgedOther : other.isBridged = intent.isBridged := by
    rw [Intent.isBridged, hchain, Intent.isBridged]
  cases h with
  | native _ hisNative =>
    rw [hisNative] at hnative
    cases hnative
  | currency hbridged _ hwealth hcurrency =>
    exact ⟨_, .currency (hbridgedOther.trans hbridged) hnativeOther (haction.trans hwealth)
      (by rw [htoken, hcurrency])⟩
  | token hbridged _ hplain hcontract =>
    refine ⟨_, .token (hbridgedOther.trans hbridged) hnativeOther ?_ (htoken ▸ hcontract)⟩
    rw [haction, htoken]
    exact hplain
  | relayed hroute hendpoint hbridge =>
    have hvalue : relayValue other = .ok other.chain.bridgeFee := by
      simp [relayValue, hnativeOther]
    rw [← hchain] at hroute hendpoint hbridge
    exact ⟨_, .relayed hroute hendpoint hbridge hvalue⟩

/-- Where an intent of the catalog is planned, calls for its chain can be made. -/
theorem reaches_of_ofIntent (hlisted : intent.Listed)
    (h : ofIntent intent campaign contracts = .ok plan) : contracts.Reaches intent.chain := by
  cases ofIntent_eq_ok_iff.1 h with
  | native hbridged | currency hbridged | token hbridged =>
    left
    apply Chain.eq_settlement_of_direct hlisted.chain
    simpa [Intent.isBridged, Chain.isBridged] using hbridged
  | relayed hroute hendpoint hbridge =>
    right
    rw [hendpoint, hbridge]
    exact ⟨hroute, Option.some_ne_none _, Option.some_ne_none _⟩

/-- A plan is for the action of its intent. -/
theorem Plans.action? (h : Plans intent campaign contracts plan) :
    plan.request.call.action? = some intent.action := by
  cases h with
  | native | token => cases intent.action <;> rfl
  | currency _ _ haction => rw [haction, Call.action?]
  | relayed => cases intent.action <;> rfl

/-- A plan tells the contract of its intent's token. -/
theorem Plans.contractOn (h : Plans intent campaign contracts plan) (hlisted : intent.Listed) :
    plan.request.call.contractOn intent.chain.id = intent.token.address := by
  cases h with
  | native _ hnative =>
    rw [(Token.isNative_iff hlisted.token).1 hnative]
    cases intent.action <;> rfl
  | currency _ _ _ hcurrency =>
    rw [Call.contractOn, Token.settlementCurrency?_eq hlisted.token hcurrency, Option.bind_some]
  | token _ _ _ hcontract =>
    rw [hcontract]
    cases intent.action <;> rfl
  | relayed => rfl

/-- On one chain of the catalog, intents that are planned to one call are akin. -/
theorem akin_of_request_eq {otherPlan : Plan} (hlisted : intent.Listed) (hothers : other.Listed)
    (h : ofIntent intent campaign contracts = .ok plan)
    (hother : ofIntent other campaign contracts = .ok otherPlan)
    (hid : other.chain.id = intent.chain.id) (heq : otherPlan.request = plan.request) :
    other.Akin intent := by
  rw [ofIntent_eq_ok_iff] at h hother
  have haction := hother.action?
  rw [heq, h.action?] at haction
  have hcontract := hother.contractOn hothers
  rw [heq, hid, h.contractOn hlisted] at hcontract
  have htoken := hothers.token
  rw [hid] at htoken
  exact ⟨(Option.some.inj haction).symm, Token.eq_of_address htoken hlisted.token hcontract.symm,
    Chain.eq_of_id hothers.chain hlisted.chain hid⟩

end Planning

end Plan

namespace Desk

variable {settings : Settings} {cache : ReadCache} {account : Address} {intent : Intent}

/-- An approval is asked for where one is needed, of the token's contract, for
whoever draws the tokens, and up to the greatest amount. -/
theorem approvalFor_eq_some_iff {request : CallRequest} :
    approvalFor settings cache account intent = some request ↔
      needsApprovalFor settings.contracts cache (some account) intent = true ∧
        ∃ spender contract, settings.contracts.spender? intent.chain = some spender ∧
          intent.token.address = some contract ∧
          request = ⟨contract, Word.zero, .approve contract spender Word.top⟩ := by
  unfold approvalFor
  cases needsApprovalFor settings.contracts cache (some account) intent with
  | false => simp
  | true =>
    simp only [if_true, Option.bind_eq_some_iff, Plan.approval?, Option.map_eq_some_iff, true_and]
    constructor
    · rintro ⟨spender, hspender, contract, hcontract, rfl⟩
      exact ⟨spender, contract, hspender, hcontract, rfl⟩
    · rintro ⟨spender, contract, hspender, hcontract, rfl⟩
      exact ⟨spender, hspender, contract, hcontract, rfl⟩

/-- What needs an approval is a token with someone to draw it. -/
theorem needsApprovalFor_cases {contracts : Contracts} {holder : Option Address}
    (h : needsApprovalFor contracts cache holder intent = true) :
    intent.token.isNative = false ∧ ∃ spender, contracts.spender? intent.chain = some spender := by
  unfold needsApprovalFor at h
  split at h
  · cases h
  · rename_i hguard
    split at h
    · cases h
    · rename_i spender hspender
      simp only [Bool.or_eq_true, not_or, Bool.not_eq_true] at hguard
      exact ⟨hguard.1, spender, hspender⟩

/-- Of an intent of the catalog an approval is asked exactly if one is needed. -/
theorem isSome_approvalFor (hlisted : intent.Listed) :
    (approvalFor settings cache account intent).isSome =
      needsApprovalFor settings.contracts cache (some account) intent := by
  cases hneeds : needsApprovalFor settings.contracts cache (some account) intent with
  | false => simp [approvalFor, hneeds]
  | true =>
    obtain ⟨hnative, spender, hspender⟩ := needsApprovalFor_cases hneeds
    obtain ⟨contract, hcontract⟩ := hlisted.exists_contract hnative
    rw [approvalFor_eq_some_iff.2 ⟨hneeds, spender, contract, hspender, hcontract, rfl⟩]
    rfl

/-- If a token needs no approval, the known allowance covers the amount. -/
theorem not_allowance_lt_of_needsApprovalFor {spender : Address}
    (h : needsApprovalFor settings.contracts cache (some account) intent = false)
    (hnative : intent.token.isNative = false) (hunits : intent.units.isZero = false)
    (hspender : settings.contracts.spender? intent.chain = some spender) :
    ¬cache.allowance intent.chain.id intent.token account spender < intent.units := by
  simpa [needsApprovalFor, hnative, hunits, hspender] using h

end Desk

end DonationFlow
