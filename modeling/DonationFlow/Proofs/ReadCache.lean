import DonationFlow.ReadCache

/-!
# What the cache remembers

A cache that starts out empty answers with the last value that was read under the key
in question.  A refresh touches what is kept under its own key and nothing else, and if
it fails it touches nothing.  Main statement: `answers_from_last_read`.
-/

namespace DonationFlow

/-- What the outcome of a read is kept under. -/
inductive Read.Key where
  | balance (holding : Holding)
  | allowance (holding : Holding) (spender : Address)
  | staking (owner : Address) (campaign : Word)
  | endowment (owner : Address) (campaign : Word)

def Read.key : Read → Read.Key
  | balance chainId token owner => .balance ⟨chainId, token.address, owner⟩
  | allowance chainId token owner spender => .allowance ⟨chainId, token.address, owner⟩ spender
  | staking owner campaign => .staking owner campaign
  | endowment owner campaign => .endowment owner campaign

namespace Landing

/-- The balance that a landing brings for a holding. -/
def balance? (holding : Holding) : Landing → Option Word
  | balance chainId token owner (.ok value) =>
    if holding = ⟨chainId, token.address, owner⟩ then some value else none
  | _ => none

/-- The allowance that a landing brings; none is read for a native asset. -/
def allowance? (holding : Holding) (spender : Address) : Landing → Option Word
  | allowance chainId token owner drawer (.ok value) =>
    if token.isNative = false ∧ (holding, spender) = (⟨chainId, token.address, owner⟩, drawer) then
      some value
    else none
  | _ => none

def staking? (holder : Address) (given : Word) : Landing → Option StakingPosition
  | staking owner campaign (.ok position) =>
    if (holder, given) = (owner, campaign) then some position else none
  | _ => none

def endowment? (holder : Address) (given : Word) : Landing → Option EndowmentPosition
  | endowment owner campaign (.ok position) =>
    if (holder, given) = (owner, campaign) then some position else none
  | _ => none

def error? : Landing → Option FlowError
  | balance _ _ _ (.error error) | allowance _ _ _ _ (.error error) | staking _ _ (.error error)
  | endowment _ _ (.error error) => some error
  | _ => none

end Landing

namespace ReadCache

/-- Each answer is the last value that was read under its key. -/
structure Recalls (cache : ReadCache) (landings : List Landing) : Prop where
  balance : ∀ chainId token owner, cache.balance chainId token owner =
    (landings.filterMap (Landing.balance? ⟨chainId, token.address, owner⟩)).getLast?.getD .zero
  allowance : ∀ chainId token owner spender, cache.allowance chainId token owner spender =
    if token.isNative then Word.top
    else
      (landings.filterMap
        (Landing.allowance? ⟨chainId, token.address, owner⟩ spender)).getLast?.getD .zero
  staking : ∀ owner campaign, cache.staking? owner campaign =
    (landings.filterMap (Landing.staking? owner campaign)).getLast?.filter (·.principal ≠ .zero)
  endowment : ∀ owner campaign, cache.endowment? owner campaign =
    (landings.filterMap (Landing.endowment? owner campaign)).getLast?.filter (·.principal ≠ .zero)

/-- A refresh answers what the chain does, and changes no answer under another key, or
any if it failed.  For a native allowance the chain is not asked. -/
structure Renews (cache : ReadCache) (landing : Landing) (refreshed : Refreshed) : Prop where
  asks : landing.read.reachesChain = true →
    refreshed.asked = [landing.read] ∧ refreshed.landing = landing
  native : ∀ chainId token owner spender, landing.read = .allowance chainId token owner spender →
    token.isNative = true → refreshed =
      ⟨cache, [], .allowance chainId token owner spender (.ok Word.top)⟩
  failed : ∀ error, refreshed.landing.error? = some error → refreshed.cache = cache
  balance : ∀ chainId token owner, landing.read.key ≠ .balance ⟨chainId, token.address, owner⟩ →
    refreshed.cache.balance chainId token owner = cache.balance chainId token owner
  allowance : ∀ chainId token owner spender,
    landing.read.key ≠ .allowance ⟨chainId, token.address, owner⟩ spender →
      refreshed.cache.allowance chainId token owner spender =
        cache.allowance chainId token owner spender
  staking : ∀ owner campaign, landing.read.key ≠ .staking owner campaign →
    refreshed.cache.staking? owner campaign = cache.staking? owner campaign
  endowment : ∀ owner campaign, landing.read.key ≠ .endowment owner campaign →
    refreshed.cache.endowment? owner campaign = cache.endowment? owner campaign

/-- What a landing brings takes the place of what was kept, under its key in its table. -/
structure Lands (cache : ReadCache) (landing : Landing) (landed : ReadCache) : Prop where
  balances : ∀ holding,
    landed.balances.get? holding = (landing.balance? holding <|> cache.balances.get? holding)
  allowances : ∀ holding spender, landed.allowances.get? (holding, spender) =
    (landing.allowance? holding spender <|> cache.allowances.get? (holding, spender))
  staking : ∀ owner campaign, landed.staking.get? (owner, campaign) =
    (landing.staking? owner campaign <|> cache.staking.get? (owner, campaign))
  endowments : ∀ owner campaign, landed.endowments.get? (owner, campaign) =
    (landing.endowment? owner campaign <|> cache.endowments.get? (owner, campaign))

theorem put_orElse {α : Type} {condition : Prop} [Decidable condition] (value : α)
    (kept : Option α) : (if condition then some value else kept) =
      ((if condition then some value else none) <|> kept) := by
  split <;> rfl

theorem lands (cache : ReadCache) (landing : Landing) :
    Lands cache landing (cache.land landing) := by
  cases landing with
  | balance chainId token owner outcome =>
    cases outcome with
    | error error => constructor <;> intros <;> rfl
    | ok value =>
      refine ⟨fun holding => ?_, fun _ _ => rfl, fun _ _ => rfl, fun _ _ => rfl⟩
      rw [land, Landing.balance?, Table.get?_put, put_orElse]
  | allowance chainId token owner spender outcome =>
    cases outcome with
    | error error => constructor <;> intros <;> rfl
    | ok value =>
      rw [land]
      split
      · rename_i hnative
        refine ⟨fun _ => rfl, fun holding drawer => ?_, fun _ _ => rfl, fun _ _ => rfl⟩
        rw [Landing.allowance?, if_neg (by simp [hnative])]
        rfl
      · rename_i hnative
        refine ⟨fun _ => rfl, fun holding drawer => ?_, fun _ _ => rfl, fun _ _ => rfl⟩
        simp only [Landing.allowance?, Bool.eq_false_iff.2 hnative, true_and]
        rw [Table.get?_put, put_orElse]
  | staking owner campaign outcome =>
    cases outcome with
    | error error => constructor <;> intros <;> rfl
    | ok position =>
      refine ⟨fun _ => rfl, fun _ _ => rfl, fun holder given => ?_, fun _ _ => rfl⟩
      rw [land, Landing.staking?, Table.get?_put, put_orElse]
  | endowment owner campaign outcome =>
    cases outcome with
    | error error => constructor <;> intros <;> rfl
    | ok position =>
      refine ⟨fun _ => rfl, fun _ _ => rfl, fun _ _ => rfl, fun holder given => ?_⟩
      rw [land, Landing.endowment?, Table.get?_put, put_orElse]

/-- Whether the chain is asked makes no difference to what is kept. -/
theorem cache_refresh (cache : ReadCache) (landing : Landing) :
    (cache.refresh landing).cache = cache.land landing := by
  unfold refresh
  split
  · rename_i chainId token owner spender outcome
    split
    · rename_i hnative
      cases outcome <;> simp [land, hnative]
    · rfl
  · rfl

section Runs

variable {α : Type} (kept : ReadCache → Option α) (brought : Landing → Option α)

/-- What is kept is the last that the landings brought. -/
theorem kept_refreshAll
    (hland : ∀ cache landing, kept (cache.land landing) = (brought landing <|> kept cache))
    (cache : ReadCache) (landings : List Landing) :
    kept (cache.refreshAll landings) = ((landings.filterMap brought).getLast? <|> kept cache) := by
  induction landings generalizing cache with
  | nil => rfl
  | cons landing landings ih =>
    have hstep : cache.refreshAll (landing :: landings) =
        (cache.land landing).refreshAll landings := by
      rw [← cache_refresh]
      rfl
    rw [hstep, ih, hland, List.filterMap_cons]
    cases brought landing with
    | none => rfl
    | some value =>
      rw [List.getLast?_cons]
      cases (landings.filterMap brought).getLast? <;> rfl

theorem kept_refreshAll_empty
    (hland : ∀ cache landing, kept (cache.land landing) = (brought landing <|> kept cache))
    (hempty : kept {} = none) (landings : List Landing) :
    kept (({} : ReadCache).refreshAll landings) = (landings.filterMap brought).getLast? := by
  rw [kept_refreshAll kept brought hland, hempty]
  cases (landings.filterMap brought).getLast? <;> rfl

end Runs

theorem not_isZero_eq (word : Word) : (!word.isZero) = decide (word ≠ .zero) := by
  have hzero : word.isZero = decide (word = .zero) := by
    rw [Bool.eq_iff_iff, Word.isZero_iff, decide_eq_true_iff, Word.ext_iff, Word.toNat_zero]
  rw [hzero, decide_not]

theorem recalls_refreshAll (landings : List Landing) :
    Recalls (({} : ReadCache).refreshAll landings) landings where
  balance chainId token owner := by
    rw [balance, kept_refreshAll_empty (·.balances.get? _) (Landing.balance? _)
      (fun cache landing => (lands cache landing).balances _) rfl]
  allowance chainId token owner spender := by
    rw [allowance, kept_refreshAll_empty (·.allowances.get? _) (Landing.allowance? _ _)
      (fun cache landing => (lands cache landing).allowances _ _) rfl]
  staking owner campaign := by
    rw [staking?, kept_refreshAll_empty (·.staking.get? _) (Landing.staking? _ _)
      (fun cache landing => (lands cache landing).staking _ _) rfl]
    simp only [← not_isZero_eq]
    rfl
  endowment owner campaign := by
    rw [endowment?, kept_refreshAll_empty (·.endowments.get? _) (Landing.endowment? _ _)
      (fun cache landing => (lands cache landing).endowments _ _) rfl]
    simp only [← not_isZero_eq]
    rfl

section Frame

variable {landing : Landing}

theorem balance?_of_key_ne {holding : Holding} (h : landing.read.key ≠ .balance holding) :
    landing.balance? holding = none := by
  unfold Landing.balance?
  split
  · rw [if_neg]
    rintro rfl
    exact h rfl
  · rfl

theorem allowance?_of_key_ne {holding : Holding} {spender : Address}
    (h : landing.read.key ≠ .allowance holding spender) :
    landing.allowance? holding spender = none := by
  unfold Landing.allowance?
  split
  · rw [if_neg]
    rintro ⟨-, heq⟩
    injection heq with hholding hspender
    subst hholding hspender
    exact h rfl
  · rfl

theorem staking?_of_key_ne {owner : Address} {campaign : Word}
    (h : landing.read.key ≠ .staking owner campaign) : landing.staking? owner campaign = none := by
  unfold Landing.staking?
  split
  · rw [if_neg]
    rintro heq
    injection heq with howner hcampaign
    subst howner hcampaign
    exact h rfl
  · rfl

theorem endowment?_of_key_ne {owner : Address} {campaign : Word}
    (h : landing.read.key ≠ .endowment owner campaign) :
    landing.endowment? owner campaign = none := by
  unfold Landing.endowment?
  split
  · rw [if_neg]
    rintro heq
    injection heq with howner hcampaign
    subst howner hcampaign
    exact h rfl
  · rfl

theorem land_of_error {error : FlowError} (cache : ReadCache) (h : landing.error? = some error) :
    cache.land landing = cache := by
  unfold Landing.error? at h
  split at h <;> first | rfl | cases h

end Frame

section Refresh

variable {cache : ReadCache} {landing : Landing}

theorem refresh_of_reachesChain (h : landing.read.reachesChain = true) :
    cache.refresh landing = ⟨cache.land landing, [landing.read], landing⟩ := by
  cases landing with
  | allowance chainId token owner spender outcome =>
    have hnative : ¬token.isNative = true := by simpa [Landing.read, Read.reachesChain] using h
    rw [refresh, if_neg hnative]
  | balance | staking | endowment => rfl

theorem refresh_of_native {chainId : Nat} {token : Token} {owner spender : Address}
    (hread : landing.read = .allowance chainId token owner spender)
    (hnative : token.isNative = true) :
    cache.refresh landing = ⟨cache, [], .allowance chainId token owner spender (.ok Word.top)⟩ := by
  cases landing with
  | allowance chainId' token' owner' spender' outcome =>
    injection hread with hchain htoken howner hspender
    subst hchain htoken howner hspender
    rw [refresh, if_pos hnative]
  | balance | staking | endowment => cases hread

/-- Only the allowance of a native asset is not read from the chain. -/
theorem exists_native_of_not_reachesChain (h : ¬landing.read.reachesChain = true) :
    ∃ chainId token owner spender, landing.read = .allowance chainId token owner spender ∧
      token.isNative = true := by
  cases landing with
  | allowance chainId token owner spender outcome =>
    exact ⟨chainId, token, owner, spender, rfl, by simpa [Landing.read, Read.reachesChain] using h⟩
  | balance | staking | endowment => exact absurd rfl h

theorem cache_refresh_of_error {error : FlowError}
    (h : (cache.refresh landing).landing.error? = some error) :
    (cache.refresh landing).cache = cache := by
  by_cases hchain : landing.read.reachesChain = true
  · rw [refresh_of_reachesChain hchain] at h ⊢
    exact land_of_error cache h
  · obtain ⟨chainId, token, owner, spender, hread, hnative⟩ :=
      exists_native_of_not_reachesChain hchain
    rw [refresh_of_native hread hnative]

end Refresh

theorem renews_refresh (cache : ReadCache) (landing : Landing) :
    Renews cache landing (cache.refresh landing) where
  asks hchain := by
    rw [refresh_of_reachesChain hchain]
    exact ⟨rfl, rfl⟩
  native _ _ _ _ := refresh_of_native
  failed _ := cache_refresh_of_error
  balance chainId token owner hkey := by
    rw [cache_refresh, balance, (lands cache landing).balances, balance?_of_key_ne hkey]
    rfl
  allowance chainId token owner spender hkey := by
    rw [cache_refresh, allowance, (lands cache landing).allowances, allowance?_of_key_ne hkey]
    rfl
  staking owner campaign hkey := by
    rw [cache_refresh, staking?, (lands cache landing).staking, staking?_of_key_ne hkey]
    rfl
  endowment owner campaign hkey := by
    rw [cache_refresh, endowment?, (lands cache landing).endowments, endowment?_of_key_ne hkey]
    rfl

/-- After any row of refreshes the answer to a balance or an allowance is the last value
that was read for the chain, the contract and the owner, and for the spender, and that to
a position is the last one, if it has a principal.  One more refresh, of any cache,
answers what the chain does, and leaves the answers under other keys, or all of them if
it fails, as they are. -/
theorem answers_from_last_read (landings : List Landing) :
    Recalls (({} : ReadCache).refreshAll landings) landings ∧
      ∀ cache landing, Renews cache landing (ReadCache.refresh cache landing) :=
  ⟨recalls_refreshAll landings, renews_refresh⟩

end ReadCache

end DonationFlow
