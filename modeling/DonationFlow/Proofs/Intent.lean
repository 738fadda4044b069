import DonationFlow.Intent
import Mathlib.Data.List.Nodup

/-!
# Intents over the catalog

An intent is listed if its chain is in the catalog and its token is taken there.
An edit leads from a listed intent to a listed one.  Two intents are akin if they
differ in the amount at most.
-/

namespace DonationFlow

namespace Chain

/-- A chain of the catalog is known by its id. -/
theorem eq_of_id {left right : Chain} (hleft : left ∈ all) (hright : right ∈ all)
    (hid : left.id = right.id) : left = right := by
  have hdistinct : (all.map (·.id)).Nodup := by decide
  exact List.inj_on_of_nodup_map hdistinct hleft hright hid

/-- Only the settlement chain is there already. -/
theorem eq_settlement_of_direct {chain : Chain} (h : chain ∈ all)
    (hroute : chain.route = .direct) : chain = settlement := by
  have hdirect : ∀ chain ∈ all, chain.route = .direct → chain = settlement := by decide
  exact hdirect chain h hroute

theorem mem_all_of_get {id : Nat} {chain : Chain} (h : get id = .ok chain) : chain ∈ all := by
  unfold get at h
  split at h
  · rename_i found hfound
    obtain rfl := Except.ok.inj h
    exact (mem_all_of_find? hfound).1
  · cases h

end Chain

namespace Token

theorem mem_listed_of_get {chainId : Nat} {symbol : String} {token : Token}
    (h : get chainId symbol = .ok token) : token ∈ listed chainId := by
  unfold get at h
  split at h
  · rename_i found hfound
    obtain rfl := Except.ok.inj h
    exact (mem_listed_of_find? hfound).1
  · cases h

/-- Among the tokens that are taken, the native assets are those without a
contract. -/
theorem isNative_iff {chainId : Nat} {token : Token} (h : token ∈ listed chainId) :
    token.isNative = true ↔ token.address = none := by
  unfold listed at h
  split_ifs at h
  all_goals
    revert token
    decide

/-- A token that is taken on a chain is known by its contract. -/
theorem eq_of_address {chainId : Nat} {left right : Token} (hleft : left ∈ listed chainId)
    (hright : right ∈ listed chainId) (haddress : left.address = right.address) :
    left = right := by
  have hdistinct : ((listed chainId).map (·.address)).Nodup := by
    unfold listed
    split_ifs <;> decide
  exact List.inj_on_of_nodup_map hdistinct hleft hright haddress

/-- A chain takes one settlement currency. -/
theorem settlementCurrency?_eq {chainId : Nat} {token : Token} (h : token ∈ listed chainId)
    (hcurrency : token.isSettlementCurrency = true) :
    settlementCurrency? chainId = some token := by
  have hsingle : ∀ token ∈ listed chainId, token.isSettlementCurrency = true →
      settlementCurrency? chainId = some token := by
    unfold settlementCurrency? listed
    split_ifs <;> decide
  exact hsingle token h hcurrency

end Token

namespace Intent

/-- The chain is in the catalog, and the token is taken there. -/
structure Listed (intent : Intent) : Prop where
  chain : intent.chain ∈ Chain.all
  token : intent.token ∈ Token.listed intent.chain.id

/-- The intents are for the same action, token and chain. -/
structure Akin (left right : Intent) : Prop where
  action : left.action = right.action
  token : left.token = right.token
  chain : left.chain = right.chain

theorem Akin.refl (intent : Intent) : intent.Akin intent := ⟨rfl, rfl, rfl⟩

theorem Akin.symm {left right : Intent} (h : left.Akin right) : right.Akin left :=
  ⟨h.action.symm, h.token.symm, h.chain.symm⟩

theorem Akin.trans {left middle right : Intent} (hleft : left.Akin middle)
    (hright : middle.Akin right) : left.Akin right :=
  ⟨hleft.action.trans hright.action, hleft.token.trans hright.token,
    hleft.chain.trans hright.chain⟩

theorem Akin.isBridged {left right : Intent} (h : left.Akin right) :
    left.isBridged = right.isBridged := congrArg Chain.isBridged h.chain

theorem akin_withAmount (intent : Intent) (text : String) :
    (intent.withAmount text).Akin intent := ⟨rfl, rfl, rfl⟩

theorem akin_clearAmount (intent : Intent) : intent.clearAmount.Akin intent := ⟨rfl, rfl, rfl⟩

theorem Listed.of_akin {left right : Intent} (h : right.Listed) (hakin : left.Akin right) :
    left.Listed where
  chain := by
    rw [hakin.chain]
    exact h.chain
  token := by
    rw [hakin.token, hakin.chain]
    exact h.token

/-- A token of a listed intent that is not native has a contract. -/
theorem Listed.exists_contract {intent : Intent} (h : intent.Listed)
    (hnative : intent.token.isNative = false) :
    ∃ contract, intent.token.address = some contract := by
  apply Option.ne_none_iff_exists'.1
  intro hnone
  rw [(Token.isNative_iff h.token).2 hnone] at hnative
  cases hnative

theorem listed_default : default.Listed where
  chain := by decide
  token := by decide

end Intent

namespace Edit

/-- The chain that an edit of the intent leads to. -/
def chainFor (edit : Edit) (intent : Intent) : Except FlowError Chain :=
  match edit.chainId with
  | some id => Chain.get id
  | none => .ok intent.chain

/-- The token that an edit of the intent leads to on the chain. -/
def tokenFor (edit : Edit) (intent : Intent) (chain : Chain) : Except FlowError Token :=
  match edit.token with
  | some symbol => Token.get chain.id symbol
  | none =>
    if chain.id = intent.chain.id then .ok intent.token
    else match Token.carryOver? chain.id intent.token.symbol with
      | some token => .ok token
      | none => .error (.unknownToken intent.token.symbol chain.id)

/-- The chain is chosen first, then the token on it. -/
theorem target_eq (edit : Edit) (intent : Intent) :
    edit.target intent = (edit.chainFor intent).bind fun chain =>
      (edit.tokenFor intent chain).map (edit.action.getD intent.action, chain, ·) := by
  have htoken : ∀ chain : Chain, (edit.tokenFor intent chain).bind
      (fun token => .ok (edit.action.getD intent.action, chain, token)) =
        (edit.tokenFor intent chain).map (edit.action.getD intent.action, chain, ·) := by
    intro chain
    cases edit.tokenFor intent chain <;> rfl
  simp only [← htoken]
  unfold target chainFor tokenFor
  cases edit.chainId with
  | none =>
    cases edit.token with
    | some symbol => rfl
    | none => simp [bind, Except.bind, pure, Except.pure]
  | some id =>
    dsimp only
    cases Chain.get id with
    | error error => rfl
    | ok chain =>
      cases edit.token with
      | some symbol => rfl
      | none =>
        dsimp only [Except.bind, bind]
        split
        · rfl
        · cases Token.carryOver? chain.id intent.token.symbol <;> rfl

theorem target_eq_ok_iff_for {edit : Edit} {intent : Intent} {action : Action} {chain : Chain}
    {token : Token} : edit.target intent = .ok (action, chain, token) ↔
      action = edit.action.getD intent.action ∧ edit.chainFor intent = .ok chain ∧
        edit.tokenFor intent chain = .ok token := by
  rw [target_eq]
  cases hchain : edit.chainFor intent with
  | error error => simp [Except.bind]
  | ok found =>
    dsimp only [Except.bind]
    cases htoken : edit.tokenFor intent found with
    | error error =>
      simp only [Except.map, reduceCtorEq, false_iff]
      rintro ⟨-, ⟨⟩, hfound⟩
      cases htoken.symm.trans hfound
    | ok chosen =>
      simp only [Except.map, Except.ok.injEq, Prod.mk.injEq]
      constructor
      · rintro ⟨rfl, rfl, rfl⟩
        exact ⟨rfl, rfl, htoken⟩
      · rintro ⟨rfl, rfl, hfound⟩
        exact ⟨rfl, rfl, Except.ok.inj (htoken.symm.trans hfound)⟩

theorem mem_all_of_chainFor {edit : Edit} {intent : Intent} {chain : Chain}
    (hchain : edit.chainFor intent = .ok chain) (h : intent.Listed) : chain ∈ Chain.all := by
  unfold chainFor at hchain
  split at hchain
  · exact Chain.mem_all_of_get hchain
  · obtain rfl := Except.ok.inj hchain
    exact h.chain

theorem mem_listed_of_tokenFor {edit : Edit} {intent : Intent} {chain : Chain} {token : Token}
    (htoken : edit.tokenFor intent chain = .ok token) (h : intent.Listed) :
    token ∈ Token.listed chain.id := by
  unfold tokenFor at htoken
  split at htoken
  · exact Token.mem_listed_of_get htoken
  · split at htoken
    · rename_i hsame
      obtain rfl := Except.ok.inj htoken
      rw [hsame]
      exact h.token
    · split at htoken
      · rename_i hcarried
        obtain rfl := Except.ok.inj htoken
        exact Token.mem_listed_of_carryOver? hcarried
      · cases htoken

/-- What an edit of a listed intent leads to is listed. -/
theorem listed_of_target {edit : Edit} {intent : Intent} {action : Action} {chain : Chain}
    {token : Token} (htarget : edit.target intent = .ok (action, chain, token))
    (h : intent.Listed) : (Intent.blank action chain token).Listed := by
  obtain ⟨-, hchain, htoken⟩ := target_eq_ok_iff_for.1 htarget
  exact ⟨mem_all_of_chainFor hchain h, mem_listed_of_tokenFor htoken h⟩

end Edit

end DonationFlow
