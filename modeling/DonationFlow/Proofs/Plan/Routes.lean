import DonationFlow.Proofs.Plan

/-!
# Which intents are planned

`Plans` says what a plan is made of; `Fails` says for which intents there is
none.  An intent on the settlement chain is always planned, if its token has a
contract unless it is the native asset.  One on a bridged chain is planned where
the relay carries value from the chain, and where the amount and the fee fit a
word if both are paid in the native asset.  Main statement:
`planned_where_carried_and_moves_amount`, by which a plan also pays and names
exactly what its intent says.
-/

namespace DonationFlow

/-- The relay carries value from the chain: its messages have an endpoint to leave
from, and a bridge contract takes the value in. -/
structure Contracts.Carries (contracts : Contracts) (chain : Chain) : Prop where
  route : chain.route = .layerZero
  endpoint : chain.endpoint ≠ none
  bridge : contracts.bridges.get? chain.id ≠ none

theorem Contracts.Carries.isBridged {contracts : Contracts} {chain : Chain}
    (h : contracts.Carries chain) : chain.isBridged = true := by
  rw [Chain.isBridged_iff, h.route]
  simp

/-- The relay can carry the native asset, but the amount and the fee together
are more than a word holds. -/
structure Intent.Overflows (intent : Intent) (contracts : Contracts) : Prop where
  route : intent.chain.route = .layerZero
  endpoint : intent.chain.endpoint ≠ none
  bridge : contracts.bridges.get? intent.chain.id ≠ none
  native : intent.token.isNative = true
  sum : wordLimit ≤ intent.units.toNat + intent.chain.bridgeFee.toNat

theorem Intent.Overflows.carries {intent : Intent} {contracts : Contracts}
    (h : intent.Overflows contracts) : contracts.Carries intent.chain :=
  ⟨h.route, h.endpoint, h.bridge⟩

/-- An amount that overflows is not blank, since the fee alone is in range. -/
theorem Intent.Overflows.units {intent : Intent} {contracts : Contracts}
    (h : intent.Overflows contracts) : intent.units.isZero = false := by
  apply Bool.eq_false_iff.2
  intro hzero
  have hunits := Word.isZero_iff.1 hzero
  have hsum := h.sum
  have hfee := intent.chain.bridgeFee.toNat_lt
  omega

namespace Call

/-- The campaign that a call gives to; an approval gives nothing. -/
def campaign? : Call → Option Word
  | approve .. => none
  | donateNative campaign | wealthBuildNative campaign | stakeNative campaign
  | donateToken campaign _ _ | wealthBuildSettlement campaign _ | wealthBuildToken campaign _ _
  | stakeToken campaign _ _ | crossChain _ campaign _ _ _ => some campaign

/-- The contract of the token that a call names. -/
def token? : Call → Option Address
  | donateNative _ | wealthBuildNative _ | stakeNative _ | wealthBuildSettlement .. => none
  | approve token _ _ | donateToken _ token _ | wealthBuildToken _ token _
  | stakeToken _ token _ => some token
  | crossChain _ _ _ token _ => token

/-- The amount that a call names. -/
def amount? : Call → Option Word
  | donateNative _ | wealthBuildNative _ | stakeNative _ => none
  | approve _ _ amount | donateToken _ _ amount | wealthBuildSettlement _ amount
  | wealthBuildToken _ _ amount | stakeToken _ _ amount | crossChain _ _ _ _ amount => some amount

end Call

namespace Plan

/-- The ways an intent cannot be planned. -/
inductive Fails (intent : Intent) (contracts : Contracts) : FlowError → Prop
  | route (hbridged : intent.isBridged = true) (hcarries : ¬contracts.Carries intent.chain) :
      Fails intent contracts (.unsupportedRoute intent.chain.name)
  | overflow (hoverflows : intent.Overflows contracts) : Fails intent contracts .zeroAmount
  | contract (hbridged : intent.isBridged = false) (hnative : intent.token.isNative = false)
      (hother : ¬(intent.action = .wealthBuild ∧ intent.token.isSettlementCurrency = true))
      (hcontract : intent.token.address = none) :
      Fails intent contracts (.unknownToken intent.token.symbol intent.chain.id)

section Failing

variable {intent : Intent} {campaign : Word} {contracts : Contracts} {error : FlowError}

/-- The value of a relayed call fails only where the sum leaves the range. -/
theorem relayValue_eq_error_iff :
    relayValue intent = .error error ↔ error = .zeroAmount ∧ intent.token.isNative = true ∧
      wordLimit ≤ intent.units.toNat + intent.chain.bridgeFee.toNat := by
  rw [relayValue, ← Word.add?_eq_none_iff]
  cases intent.token.isNative with
  | false => simp
  | true =>
    cases intent.units.add? intent.chain.bridgeFee with
    | none => simp [eq_comm]
    | some value => simp

theorem toNat_relayValue {value : Word} (h : relayValue intent = .ok value) :
    value.toNat =
      (if intent.token.isNative then intent.units.toNat else 0) + intent.chain.bridgeFee.toNat := by
  unfold relayValue at h
  cases hnative : intent.token.isNative with
  | false =>
    rw [hnative] at h
    cases h
    simp
  | true =>
    rw [hnative, if_pos rfl] at h
    split at h
    · rename_i sum hsum
      cases h
      rw [Word.add?_eq_some_iff.1 hsum, if_pos rfl]
    · cases h

theorem fails_of_relayed (hbridged : intent.isBridged = true)
    (h : Plan.relayed intent campaign contracts = .error error) :
    Fails intent contracts error := by
  unfold Plan.relayed at h
  split at h
  · rename_i hroute hendpoint
    split at h
    · rename_i hbridge
      cases hvalue : relayValue intent with
      | ok value =>
        rw [hvalue] at h
        cases h
      | error cause =>
        rw [hvalue] at h
        cases h
        obtain ⟨rfl, hnative, hsum⟩ := relayValue_eq_error_iff.1 hvalue
        exact .overflow ⟨hroute, by simp [hendpoint], by simp [hbridge], hnative, hsum⟩
    · rename_i hbridge
      cases h
      exact .route hbridged fun hcarries => hcarries.bridge hbridge
  · rename_i hroute
    cases h
    refine .route hbridged fun hcarries => ?_
    obtain ⟨endpoint, hendpoint⟩ := Option.ne_none_iff_exists'.1 hcarries.endpoint
    exact hroute endpoint hcarries.route hendpoint

theorem fails_of_direct (hbridged : intent.isBridged = false)
    (h : direct intent campaign contracts.settlement = .error error) :
    Fails intent contracts error := by
  rw [direct] at h
  dsimp only at h
  split at h
  · cases h
  · rename_i hnative
    split at h
    · cases h
    · rename_i hother
      rw [contractOf] at h
      cases hcontract : intent.token.address with
      | none =>
        rw [hcontract] at h
        cases h
        exact .contract hbridged (Bool.eq_false_iff.2 hnative) (by simpa using hother) hcontract
      | some contract =>
        rw [hcontract] at h
        cases h

theorem ofIntent_of_overflows (h : intent.Overflows contracts) (campaign : Word) :
    ofIntent intent campaign contracts = .error .zeroAmount := by
  obtain ⟨endpoint, hendpoint⟩ := Option.ne_none_iff_exists'.1 h.endpoint
  obtain ⟨bridge, hbridge⟩ := Option.ne_none_iff_exists'.1 h.bridge
  have hbridged : intent.isBridged = true := h.carries.isBridged
  have hvalue : relayValue intent = .error .zeroAmount :=
    relayValue_eq_error_iff.2 ⟨rfl, h.native, h.sum⟩
  have hrelayed : Plan.relayed intent campaign contracts = .error .zeroAmount := by
    simp only [Plan.relayed, h.route, hendpoint, hbridge, hvalue]
    rfl
  rw [ofIntent, hbridged, if_pos rfl, hrelayed]
  rfl

/-- What cannot be planned in one way is not planned in another. -/
theorem Fails.not_plans {plan : Plan} (h : Fails intent contracts error) :
    ¬Plans intent campaign contracts plan := by
  intro hplans
  cases h with
  | overflow hoverflows =>
    have hplan := ofIntent_eq_ok_iff.2 hplans
    rw [ofIntent_of_overflows hoverflows] at hplan
    cases hplan
  | route hbridged hcarries =>
    cases hplans with
    | native hdirect | currency hdirect | token hdirect =>
      rw [hbridged] at hdirect
      cases hdirect
    | relayed hroute hendpoint hbridge =>
      exact hcarries ⟨hroute, by simp [hendpoint], by simp [hbridge]⟩
  | contract hbridged hnative hother hcontract =>
    cases hplans with
    | native _ hisNative =>
      rw [hnative] at hisNative
      cases hisNative
    | currency _ _ haction hcurrency => exact hother ⟨haction, hcurrency⟩
    | token _ _ _ hisContract =>
      rw [hcontract] at hisContract
      cases hisContract
    | relayed hroute =>
      have hcrosses : intent.isBridged = true := by simp [Intent.isBridged, Chain.isBridged, hroute]
      rw [hbridged] at hcrosses
      cases hcrosses

theorem Fails.unique {other : FlowError} (h : Fails intent contracts error)
    (hother : Fails intent contracts other) : error = other := by
  cases h with
  | route hbridged hcarries =>
    cases hother with
    | route => rfl
    | overflow hoverflows => exact absurd hoverflows.carries hcarries
    | contract hdirect =>
      rw [hbridged] at hdirect
      cases hdirect
  | overflow hoverflows =>
    cases hother with
    | route _ hcarries => exact absurd hoverflows.carries hcarries
    | overflow => rfl
    | contract hdirect =>
      rw [Intent.isBridged, hoverflows.carries.isBridged] at hdirect
      cases hdirect
  | contract hdirect =>
    cases hother with
    | route hbridged =>
      rw [hdirect] at hbridged
      cases hbridged
    | overflow hoverflows =>
      rw [Intent.isBridged, hoverflows.carries.isBridged] at hdirect
      cases hdirect
    | contract => rfl

theorem fails_of_ofIntent (h : ofIntent intent campaign contracts = .error error) :
    Fails intent contracts error := by
  rw [ofIntent] at h
  cases hbridged : intent.isBridged with
  | true =>
    cases hrelayed : Plan.relayed intent campaign contracts with
    | ok request => simp [hbridged, hrelayed, Except.map] at h
    | error cause =>
      simp only [hbridged, hrelayed, Except.map, if_true, Except.error.injEq] at h
      rw [← h]
      exact fails_of_relayed hbridged hrelayed
  | false =>
    cases hdirect : direct intent campaign contracts.settlement with
    | ok request => simp [hbridged, hdirect, Except.map] at h
    | error cause =>
      simp only [hbridged, hdirect, Except.map, Bool.false_eq_true, if_false,
        Except.error.injEq] at h
      rw [← h]
      exact fails_of_direct hbridged hdirect

/-- Planning fails in one of the three ways, with the error of it. -/
theorem ofIntent_eq_error_iff :
    ofIntent intent campaign contracts = .error error ↔ Fails intent contracts error := by
  constructor
  · exact fails_of_ofIntent
  · intro hfails
    cases hplan : ofIntent intent campaign contracts with
    | ok plan => exact absurd (ofIntent_eq_ok_iff.1 hplan) hfails.not_plans
    | error cause => rw [(fails_of_ofIntent hplan).unique hfails]

end Failing

/-- The plan pays and names what its intent says, and goes to the contract that
draws the tokens. -/
structure Moves (intent : Intent) (campaign : Word) (contracts : Contracts) (plan : Plan) :
    Prop where
  target : contracts.spender? intent.chain = some plan.request.target
  /-- The amount is paid along if it is native, and the relay's fee on a bridged chain. -/
  value : plan.request.value.toNat =
    (if intent.token.isNative then intent.units.toNat else 0) +
      (if intent.isBridged then intent.chain.bridgeFee.toNat else 0)
  action : plan.request.call.action? = some intent.action
  /-- The native asset is named by no contract. -/
  native : intent.token.isNative = true → plan.request.call.token? = none
  /-- Another token is named by its contract.  Only wealth-building with the settlement
  currency, where it is there already, has a call of its own for it. -/
  token : intent.token.isNative = false → plan.request.call.amount? = some intent.units ∧
    ((∃ contract, intent.token.address = some contract ∧
        plan.request.call.token? = some contract) ∨
      plan.request.call = .wealthBuildSettlement campaign intent.units ∧
        intent.isBridged = false ∧ intent.action = .wealthBuild ∧
        intent.token.isSettlementCurrency = true)
  relayed : intent.isBridged = true → ∃ endpoint, intent.chain.endpoint = some endpoint ∧
    plan.request.call =
      .crossChain endpoint campaign intent.action.code intent.token.address intent.units
  bridged : plan.bridged = intent.isBridged
  campaign : plan.request.call.campaign? = some campaign

section Moving

variable {intent : Intent} {campaign : Word} {contracts : Contracts} {plan : Plan}

/-- Each way of planning moves what the intent says. -/
theorem Plans.moves (h : Plans intent campaign contracts plan)
    (htoken : intent.token.isNative = true ↔ intent.token.address = none) :
    Moves intent campaign contracts plan := by
  have hplan := ofIntent_eq_ok_iff.2 h
  have htarget := spender?_of_ofIntent hplan
  have haction := h.action?
  have hflag := bridged_of_ofIntent hplan
  cases h with
  | native hbridged hnative =>
    refine ⟨htarget, by simp [hnative, hbridged], haction, fun _ => ?_, by simp [hnative],
      by simp [hbridged], hflag, ?_⟩
    all_goals cases intent.action <;> rfl
  | currency hbridged hnative hwealth hcurrency =>
    exact ⟨htarget, by simp [hnative, hbridged], haction, by simp [hnative],
      fun _ => ⟨rfl, Or.inr ⟨rfl, hbridged, hwealth, hcurrency⟩⟩, by simp [hbridged], hflag, rfl⟩
  | @token contract hbridged hnative hother hcontract =>
    refine ⟨htarget, by simp [hnative, hbridged], haction, by simp [hnative],
      fun _ => ⟨?_, Or.inl ⟨contract, hcontract, ?_⟩⟩, by simp [hbridged], hflag, ?_⟩
    all_goals cases intent.action <;> rfl
  | @relayed endpoint bridge value hroute hendpoint hbridge hvalue =>
    have hbridged : intent.isBridged = true := by simp [Intent.isBridged, Chain.isBridged, hroute]
    refine ⟨htarget, ?_, haction, htoken.1, ?_, fun _ => ⟨endpoint, hendpoint, rfl⟩, hflag, rfl⟩
    · rw [if_pos hbridged]
      exact toNat_relayValue hvalue
    · intro hnative
      have hcontract : intent.token.address ≠ none := by
        intro hnone
        rw [htoken.2 hnone] at hnative
        cases hnative
      obtain ⟨contract, haddress⟩ := Option.ne_none_iff_exists'.1 hcontract
      exact ⟨rfl, Or.inl ⟨contract, haddress, haddress⟩⟩

/-- If every token but the native asset has a contract, planning fails by the sum or by
the route. -/
theorem ofIntent_eq_error_iff_carries {error : FlowError}
    (htoken : intent.token.isNative = true ↔ intent.token.address = none) :
    ofIntent intent campaign contracts = .error error ↔
      error = .zeroAmount ∧ contracts.Carries intent.chain ∧ intent.token.isNative = true ∧
          wordLimit ≤ intent.units.toNat + intent.chain.bridgeFee.toNat ∨
        error = .unsupportedRoute intent.chain.name ∧ intent.isBridged = true ∧
          ¬contracts.Carries intent.chain := by
  rw [ofIntent_eq_error_iff]
  constructor
  · intro hfails
    cases hfails with
    | route hbridged hcarries => exact Or.inr ⟨rfl, hbridged, hcarries⟩
    | overflow hoverflows =>
      exact Or.inl ⟨rfl, hoverflows.carries, hoverflows.native, hoverflows.sum⟩
    | contract _ hnative _ hcontract =>
      rw [htoken.2 hcontract] at hnative
      cases hnative
  · rintro (⟨rfl, hcarries, hnative, hsum⟩ | ⟨rfl, hbridged, hcarries⟩)
    · exact .overflow ⟨hcarries.route, hcarries.endpoint, hcarries.bridge, hnative, hsum⟩
    · exact .route hbridged hcarries

/-- So there is a plan where neither is in the way. -/
theorem exists_ofIntent_iff
    (htoken : intent.token.isNative = true ↔ intent.token.address = none) :
    (∃ plan, ofIntent intent campaign contracts = .ok plan) ↔
      intent.isBridged = false ∨ contracts.Carries intent.chain ∧
        ¬(intent.token.isNative = true ∧
          wordLimit ≤ intent.units.toNat + intent.chain.bridgeFee.toNat) := by
  have hplanned : (∃ plan, ofIntent intent campaign contracts = .ok plan) ↔
      ∀ error, ofIntent intent campaign contracts ≠ .error error := by
    cases ofIntent intent campaign contracts <;> simp
  simp only [hplanned, ne_eq, ofIntent_eq_error_iff_carries htoken]
  constructor
  · intro hnone
    cases hbridged : intent.isBridged with
    | false => exact Or.inl rfl
    | true =>
      have hcarries : contracts.Carries intent.chain := by
        by_contra hnot
        exact hnone _ (Or.inr ⟨rfl, hbridged, hnot⟩)
      exact Or.inr ⟨hcarries, fun hover => hnone _ (Or.inl ⟨rfl, hcarries, hover⟩)⟩
  · rintro (hdirect | ⟨hcarries, hfits⟩) error (⟨-, hisCarried, hover⟩ | ⟨-, hbridged, hnot⟩)
    · rw [Intent.isBridged, hisCarried.isBridged] at hdirect
      cases hdirect
    · rw [hbridged] at hdirect
      cases hdirect
    · exact hfits hover
    · exact hnot hcarries

/-- Of a token that is native exactly if it has no contract, an intent is planned
where its chain is not bridged, or where the relay carries value from it and the
amount and the fee, if both are native, fit a word.  It fails as a blank amount
does where only the sum is in the way, and otherwise because of the route.  A
plan moves what the intent says. -/
theorem planned_where_carried_and_moves_amount (intent : Intent) (campaign : Word)
    (contracts : Contracts)
    (htoken : intent.token.isNative = true ↔ intent.token.address = none) :
    ((∃ plan, ofIntent intent campaign contracts = .ok plan) ↔
      intent.isBridged = false ∨ contracts.Carries intent.chain ∧
        ¬(intent.token.isNative = true ∧
          wordLimit ≤ intent.units.toNat + intent.chain.bridgeFee.toNat)) ∧
    (∀ error, ofIntent intent campaign contracts = .error error ↔
      error = .zeroAmount ∧ contracts.Carries intent.chain ∧ intent.token.isNative = true ∧
          wordLimit ≤ intent.units.toNat + intent.chain.bridgeFee.toNat ∨
        error = .unsupportedRoute intent.chain.name ∧ intent.isBridged = true ∧
          ¬contracts.Carries intent.chain) ∧
    ∀ plan, ofIntent intent campaign contracts = .ok plan →
      Moves intent campaign contracts plan := by
  refine ⟨exists_ofIntent_iff htoken, fun error => ofIntent_eq_error_iff_carries htoken, ?_⟩
  intro plan hplan
  exact (ofIntent_eq_ok_iff.1 hplan).moves htoken

/-- A stake of the native asset from a chain that is in no catalog, with a relay
that takes three thousandths for itself. -/
def remoteStake (units : Word) : Intent :=
  ⟨.stake, Token.native "OUT", Chain.relayed 999 "Outpost" "OUT" .layerZero (some 7) 90 3,
    "", units⟩

def remoteContracts : Contracts :=
  { settlement := ⟨0xaa, by decide⟩, bridges := Table.empty.put 999 ⟨0xbb, by decide⟩ }

/-- With the greatest amount that leaves room for the fee the value is the greatest
word, and with a greater one there is no plan. -/
theorem planned_where_carried_and_moves_amount_of_remoteStake :
    let most := remoteStake (Word.top.monus (Chain.milli 3))
    let beyond := remoteStake Word.top
    most.chain ∉ Chain.all ∧ (most.token.isNative = true ↔ most.token.address = none) ∧
      (∃ plan, ofIntent most Word.zero remoteContracts = .ok plan ∧
        Moves most Word.zero remoteContracts plan ∧ plan.request.value = Word.top) ∧
      ofIntent beyond Word.zero remoteContracts = .error .zeroAmount := by
  intro most beyond
  have hnative : most.token.isNative = true ↔ most.token.address = none := by decide
  have hcarries : remoteContracts.Carries most.chain := ⟨by decide, by decide, by decide⟩
  obtain ⟨hplanned, -, hmoves⟩ :=
    planned_where_carried_and_moves_amount most Word.zero remoteContracts hnative
  obtain ⟨-, herror, -⟩ :=
    planned_where_carried_and_moves_amount beyond Word.zero remoteContracts hnative
  obtain ⟨plan, hplan⟩ := hplanned.2 (Or.inr ⟨hcarries, by decide⟩)
  have hvalue : plan.request.value = Word.top := by
    rw [Word.ext_iff, (hmoves plan hplan).value]
    decide
  exact ⟨by decide, hnative, ⟨plan, hplan, hmoves plan hplan, hvalue⟩,
    (herror _).2 (Or.inl ⟨rfl, hcarries, rfl, by decide⟩)⟩

end Moving

end Plan

end DonationFlow
