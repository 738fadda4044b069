import DonationFlow.Proofs.Intent

/-!
# What an edit leads to

An edit names some of action, chain and token; the catalog says what becomes of
the others.  `Edit.Leads` and `Edit.Chooses` say which chain and which token that
is, and `Edit.Rejects` when there is none.  Main statements: `target_eq_ok_iff`
and `target_eq_error_iff`.
-/

namespace DonationFlow

namespace Chain

theorem get_eq_ok_iff {id : Nat} {chain : Chain} :
    get id = .ok chain ↔ chain ∈ all ∧ chain.id = id := by
  constructor
  · intro h
    unfold get at h
    split at h
    · rename_i found hfound
      obtain rfl := Except.ok.inj h
      exact mem_all_of_find? hfound
    · cases h
  · rintro ⟨hmem, rfl⟩
    unfold get
    cases hfound : find? chain.id with
    | none => exact absurd (decide_eq_true rfl) (List.find?_eq_none.1 hfound chain hmem)
    | some found =>
      obtain ⟨hfoundMem, hid⟩ := mem_all_of_find? hfound
      rw [eq_of_id hfoundMem hmem hid]

theorem get_eq_error_iff {id : Nat} {error : FlowError} :
    get id = .error error ↔ (∀ chain ∈ all, chain.id ≠ id) ∧ error = .unknownChain id := by
  unfold get
  cases hfound : find? id with
  | some found =>
    obtain ⟨hmem, hid⟩ := mem_all_of_find? hfound
    exact iff_of_false (fun h => nomatch h) fun h => h.1 found hmem hid
  | none =>
    have hunknown : ∀ chain ∈ all, chain.id ≠ id := by
      simpa [find?] using hfound
    constructor
    · rintro ⟨⟩
      exact ⟨hunknown, rfl⟩
    · rintro ⟨-, rfl⟩
      rfl

end Chain

namespace Token

/-- The symbols of the catalog. -/
def symbols : List String := ["ETH", "USDC", "WETH", "DAI", "POL", "AVAX"]

variable {chainId otherId : Nat} {token other : Token} {symbol : String}

theorem symbol_mem_symbols (h : token ∈ listed chainId) : token.symbol ∈ symbols := by
  have hall : ∀ token ∈ listed chainId, token.symbol ∈ symbols := by
    unfold listed
    split_ifs <;> decide
  exact hall token h

/-- No two symbols of the catalog differ in the case of their letters only. -/
theorem symbol_eq_of_sameLetters (h : token ∈ listed chainId) (hother : other ∈ listed otherId)
    (hsame : Text.sameLetters token.symbol other.symbol = true) :
    token.symbol = other.symbol := by
  have hdistinct : ∀ left ∈ symbols, ∀ right ∈ symbols,
      Text.sameLetters left right = true → left = right := by decide
  exact hdistinct _ (symbol_mem_symbols h) _ (symbol_mem_symbols hother) hsame

/-- A token that is taken on a chain is known by its symbol. -/
theorem eq_of_symbol (h : token ∈ listed chainId) (hother : other ∈ listed chainId)
    (hsymbol : token.symbol = other.symbol) : token = other := by
  have hdistinct : ((listed chainId).map (·.symbol)).Nodup := by
    unfold listed
    split_ifs <;> decide
  exact List.inj_on_of_nodup_map hdistinct h hother hsymbol

theorem find?_eq_some_iff : find? chainId symbol = some token ↔
    token ∈ listed chainId ∧ Text.sameLetters token.symbol symbol = true := by
  refine ⟨mem_listed_of_find?, ?_⟩
  rintro ⟨hmem, hsame⟩
  cases hfound : find? chainId symbol with
  | none => exact absurd hsame (by simpa using List.find?_eq_none.1 hfound token hmem)
  | some found =>
    obtain ⟨hfoundMem, hfoundSame⟩ := mem_listed_of_find? hfound
    have hletters : Text.sameLetters found.symbol token.symbol = true :=
      Text.sameLetters_iff.2
        ((Text.sameLetters_iff.1 hfoundSame).trans (Text.sameLetters_iff.1 hsame).symm)
    rw [eq_of_symbol hfoundMem hmem (symbol_eq_of_sameLetters hfoundMem hmem hletters)]

theorem find?_eq_none_iff : find? chainId symbol = none ↔
    ∀ token ∈ listed chainId, Text.sameLetters token.symbol symbol = false := by
  simp [find?]

/-- Every chain of the catalog has a settlement currency. -/
theorem exists_settlementCurrency {chain : Chain} (h : chain ∈ Chain.all) :
    ∃ token, settlementCurrency? chain.id = some token := by
  have hall : ∀ chain ∈ Chain.all, (settlementCurrency? chain.id).isSome = true := by decide
  exact Option.isSome_iff_exists.1 (hall chain h)

theorem settlementCurrency?_eq_some_iff : settlementCurrency? chainId = some token ↔
    token ∈ listed chainId ∧ token.isSettlementCurrency = true := by
  constructor
  · intro h
    exact ⟨List.mem_of_find?_eq_some h, List.find?_some h⟩
  · rintro ⟨hmem, hcurrency⟩
    exact settlementCurrency?_eq hmem hcurrency

/-- A token of another chain is carried over under its symbol, or else replaced by
the settlement currency. -/
theorem carryOver?_eq_some_iff {chain : Chain} (hchain : chain ∈ Chain.all)
    (hother : other ∈ listed otherId) :
    carryOver? chain.id other.symbol = some token ↔
      token ∈ listed chain.id ∧ (token.symbol = other.symbol ∨
        (∀ third ∈ listed chain.id, third.symbol ≠ other.symbol) ∧
          token.isSettlementCurrency = true) := by
  rw [carryOver?]
  cases hfound : find? chain.id other.symbol with
  | some found =>
    obtain ⟨hmem, hsame⟩ := mem_listed_of_find? hfound
    have hsymbol := symbol_eq_of_sameLetters hmem hother hsame
    constructor
    · rintro ⟨⟩
      exact ⟨hmem, Or.inl hsymbol⟩
    · rintro ⟨htoken, heq | ⟨hnone, -⟩⟩
      · rw [eq_of_symbol hmem htoken (hsymbol.trans heq.symm)]
        rfl
      · exact absurd hsymbol (hnone found hmem)
  | none =>
    have hnone : ∀ third ∈ listed chain.id, third.symbol ≠ other.symbol := by
      intro third hthird heq
      have hdiffers := find?_eq_none_iff.1 hfound third hthird
      rw [heq, Text.sameLetters_self] at hdiffers
      cases hdiffers
    obtain ⟨currency, hcurrency⟩ := exists_settlementCurrency hchain
    have hlast : (none <|> settlementCurrency? chain.id <|> (listed chain.id).head?) =
        settlementCurrency? chain.id := by
      rw [hcurrency]
      rfl
    rw [hlast, settlementCurrency?_eq_some_iff]
    constructor
    · rintro ⟨hmem, hholds⟩
      exact ⟨hmem, Or.inr ⟨hnone, hholds⟩⟩
    · rintro ⟨hmem, heq | ⟨-, hholds⟩⟩
      · exact absurd heq (hnone token hmem)
      · exact ⟨hmem, hholds⟩

/-- On a chain of the catalog there is always something to carry a token over to. -/
theorem carryOver?_ne_none {chain : Chain} (hchain : chain ∈ Chain.all) (symbol : String) :
    carryOver? chain.id symbol ≠ none := by
  obtain ⟨currency, hcurrency⟩ := exists_settlementCurrency hchain
  rw [carryOver?, hcurrency]
  cases find? chain.id symbol <;> simp

end Token

namespace Edit

/-- The chain that an edit of the intent leads to: the one that it names, or the
present one. -/
inductive Leads (edit : Edit) (intent : Intent) (chain : Chain) : Prop
  | named (hid : edit.chainId = some chain.id) (hmem : chain ∈ Chain.all)
  | kept (hid : edit.chainId = none) (hchain : chain = intent.chain)

/-- The token that an edit of the intent leads to on the chain: the one that it
names, in whatever case; the present one where the chain stays; elsewhere the one
of the same symbol or, where there is none, the settlement currency. -/
inductive Chooses (edit : Edit) (intent : Intent) (chain : Chain) (token : Token) : Prop
  | named {symbol : String} (hsymbol : edit.token = some symbol)
      (hmem : token ∈ Token.listed chain.id)
      (hsame : Text.sameLetters token.symbol symbol = true)
  | kept (hsymbol : edit.token = none) (hchain : chain = intent.chain)
      (htoken : token = intent.token)
  | carried (hsymbol : edit.token = none) (hchain : chain ≠ intent.chain)
      (hmem : token ∈ Token.listed chain.id) (hsame : token.symbol = intent.token.symbol)
  | replaced (hsymbol : edit.token = none) (hchain : chain ≠ intent.chain)
      (hmem : token ∈ Token.listed chain.id) (hcurrency : token.isSettlementCurrency = true)
      (hother : ∀ other ∈ Token.listed chain.id, other.symbol ≠ intent.token.symbol)

/-- An edit of the intent is rejected: it names a chain that is not in the catalog,
or a token that is not taken on the chain it leads to. -/
inductive Rejects (edit : Edit) (intent : Intent) : FlowError → Prop
  | chain {id : Nat} (hid : edit.chainId = some id)
      (hunknown : ∀ chain ∈ Chain.all, chain.id ≠ id) :
      Rejects edit intent (.unknownChain id)
  | token {chain : Chain} {symbol : String} (hleads : edit.Leads intent chain)
      (hsymbol : edit.token = some symbol)
      (hunknown : ∀ token ∈ Token.listed chain.id,
        Text.sameLetters token.symbol symbol = false) :
      Rejects edit intent (.unknownToken symbol chain.id)

variable {edit : Edit} {intent : Intent} {action : Action} {chain : Chain} {token : Token}
  {error : FlowError}

theorem chainFor_eq_ok_iff : edit.chainFor intent = .ok chain ↔ edit.Leads intent chain := by
  unfold chainFor
  cases hid : edit.chainId with
  | none =>
    constructor
    · rintro ⟨⟩
      exact .kept hid rfl
    · rintro (⟨hnamed, -⟩ | ⟨-, rfl⟩)
      · cases hid.symm.trans hnamed
      · rfl
  | some id =>
    dsimp only
    rw [Chain.get_eq_ok_iff]
    constructor
    · rintro ⟨hmem, rfl⟩
      exact .named hid hmem
    · rintro (⟨hnamed, hmem⟩ | ⟨hnone, -⟩)
      · exact ⟨hmem, (Option.some.inj (hid.symm.trans hnamed)).symm⟩
      · cases hid.symm.trans hnone

theorem chainFor_eq_error_iff : edit.chainFor intent = .error error ↔
    ∃ id, edit.chainId = some id ∧ (∀ chain ∈ Chain.all, chain.id ≠ id) ∧
      error = .unknownChain id := by
  unfold chainFor
  cases edit.chainId with
  | none => simp
  | some id => simp [Chain.get_eq_error_iff]

theorem tokenFor_eq_ok_iff (hchain : chain ∈ Chain.all) (h : intent.Listed) :
    edit.tokenFor intent chain = .ok token ↔ edit.Chooses intent chain token := by
  unfold tokenFor
  cases hsymbol : edit.token with
  | some symbol =>
    have hget : Token.get chain.id symbol = .ok token ↔
        Token.find? chain.id symbol = some token := by
      rw [Token.get]
      cases Token.find? chain.id symbol <;> simp
    dsimp only
    rw [hget, Token.find?_eq_some_iff]
    constructor
    · rintro ⟨hmem, hsame⟩
      exact .named hsymbol hmem hsame
    · rintro (⟨hnamed, hmem, hsame⟩ | ⟨hnone, -⟩ | ⟨hnone, -⟩ | ⟨hnone, -⟩)
      · obtain rfl := Option.some.inj (hsymbol.symm.trans hnamed)
        exact ⟨hmem, hsame⟩
      all_goals cases hsymbol.symm.trans hnone
  | none =>
    dsimp only
    by_cases hid : chain.id = intent.chain.id
    · have hsame := Chain.eq_of_id hchain h.chain hid
      rw [if_pos hid]
      constructor
      · rintro ⟨⟩
        exact .kept hsymbol hsame rfl
      · rintro (⟨hnamed, -⟩ | ⟨-, -, rfl⟩ | ⟨-, hother, -⟩ | ⟨-, hother, -⟩)
        · cases hsymbol.symm.trans hnamed
        · rfl
        all_goals exact absurd hsame hother
    · have hother : chain ≠ intent.chain := fun hsame => hid (congrArg Chain.id hsame)
      have hcarried : Token.carryOver? chain.id intent.token.symbol = some token ↔
          edit.Chooses intent chain token := by
        rw [Token.carryOver?_eq_some_iff hchain h.token]
        constructor
        · rintro ⟨hmem, hsame | ⟨hnone, hcurrency⟩⟩
          · exact .carried hsymbol hother hmem hsame
          · exact .replaced hsymbol hother hmem hcurrency hnone
        · rintro (⟨hnamed, -⟩ | ⟨-, hkept, -⟩ | ⟨-, -, hmem, hsame⟩ |
            ⟨-, -, hmem, hcurrency, hnone⟩)
          · cases hsymbol.symm.trans hnamed
          · exact absurd hkept hother
          · exact ⟨hmem, Or.inl hsame⟩
          · exact ⟨hmem, Or.inr ⟨hnone, hcurrency⟩⟩
      rw [if_neg hid, ← hcarried]
      cases Token.carryOver? chain.id intent.token.symbol <;> simp

theorem tokenFor_eq_error_iff (hchain : chain ∈ Chain.all) :
    edit.tokenFor intent chain = .error error ↔
      ∃ symbol, edit.token = some symbol ∧
        (∀ token ∈ Token.listed chain.id, Text.sameLetters token.symbol symbol = false) ∧
        error = .unknownToken symbol chain.id := by
  unfold tokenFor
  cases edit.token with
  | some symbol =>
    dsimp only
    rw [Token.get]
    cases hfound : Token.find? chain.id symbol with
    | some found =>
      obtain ⟨hmem, hsame⟩ := Token.mem_listed_of_find? hfound
      refine iff_of_false (fun h => nomatch h) ?_
      rintro ⟨_, ⟨⟩, hunknown, -⟩
      cases hsame.symm.trans (hunknown found hmem)
    | none =>
      have hunknown := Token.find?_eq_none_iff.1 hfound
      constructor
      · rintro ⟨⟩
        exact ⟨symbol, rfl, hunknown, rfl⟩
      · rintro ⟨_, ⟨⟩, -, rfl⟩
        rfl
  | none =>
    refine iff_of_false ?_ fun ⟨_, hnamed, _⟩ => nomatch hnamed
    dsimp only
    split
    · exact fun h => nomatch h
    · cases hcarried : Token.carryOver? chain.id intent.token.symbol with
      | none => exact absurd hcarried (Token.carryOver?_ne_none hchain _)
      | some token => exact fun h => nomatch h

/-! ## The target -/

/-- What an edit of a listed intent leads to. -/
theorem target_eq_ok_iff (h : intent.Listed) :
    edit.target intent = .ok (action, chain, token) ↔
      action = edit.action.getD intent.action ∧ edit.Leads intent chain ∧
        edit.Chooses intent chain token := by
  rw [target_eq_ok_iff_for, chainFor_eq_ok_iff]
  refine and_congr_right fun _ => and_congr_right fun hleads => ?_
  exact tokenFor_eq_ok_iff (mem_all_of_chainFor (chainFor_eq_ok_iff.2 hleads) h) h

/-- An edit of a listed intent leads nowhere exactly if it is rejected. -/
theorem target_eq_error_iff (h : intent.Listed) :
    edit.target intent = .error error ↔ edit.Rejects intent error := by
  rw [target_eq]
  constructor
  · intro htarget
    cases hchain : edit.chainFor intent with
    | error cause =>
      rw [hchain] at htarget
      obtain rfl : cause = error := Except.error.inj htarget
      obtain ⟨id, hid, hunknown, rfl⟩ := chainFor_eq_error_iff.1 hchain
      exact .chain hid hunknown
    | ok found =>
      rw [hchain] at htarget
      dsimp only [Except.bind] at htarget
      cases htoken : edit.tokenFor intent found with
      | ok chosen =>
        rw [htoken] at htarget
        cases htarget
      | error cause =>
        rw [htoken] at htarget
        obtain rfl : cause = error := Except.error.inj htarget
        obtain ⟨symbol, hsymbol, hunknown, rfl⟩ :=
          (tokenFor_eq_error_iff (mem_all_of_chainFor hchain h)).1 htoken
        exact .token (chainFor_eq_ok_iff.1 hchain) hsymbol hunknown
  · rintro (⟨hid, hunknown⟩ | ⟨hleads, hsymbol, hunknown⟩)
    · rw [chainFor_eq_error_iff.2 ⟨_, hid, hunknown, rfl⟩]
      rfl
    · have hchain := chainFor_eq_ok_iff.2 hleads
      rw [hchain]
      dsimp only [Except.bind]
      rw [(tokenFor_eq_error_iff (mem_all_of_chainFor hchain h)).2 ⟨_, hsymbol, hunknown, rfl⟩]
      rfl

end Edit

end DonationFlow
