import DonationFlow.Proofs.Flow.Editing

/-!
# One edit and its parts

An edit of several fields leads to the same desk as its parts entered one after another,
although these may start over several times and pass through intents that the edit at
once never shows.  `Desk.Turned` is what all these desks have in common; only their
epochs differ.  Main statement: `edit_same_in_parts_and_again`.
-/

namespace DonationFlow

namespace Edit

variable {edit : Edit} {intent other : Intent} {action : Action} {chain : Chain} {token : Token}

/-- An edit for each field that is given, in the order in which they are entered. -/
def parts (edit : Edit) : List Edit :=
  (edit.chainId.map fun id => { chainId := some id }).toList ++
  (edit.token.map fun symbol => { token := some symbol }).toList ++
  (edit.action.map fun action => { action := some action }).toList ++
  (edit.amount.map fun text => { amount := some text }).toList

/-- What an edit leads to does not hang on the amount of the intent. -/
theorem target_congr (edit : Edit) (h : intent.Akin other) :
    edit.target intent = edit.target other := by
  unfold target
  rw [h.action, h.chain, h.token]

/-- On the same chain a token that is not named stays. -/
theorem tokenFor_of_kept (htoken : edit.token = none) :
    edit.tokenFor intent intent.chain = .ok intent.token := by
  simp [tokenFor, htoken]

/-- An edit leads to the same from where it has led. -/
theorem target_of_target (h : edit.target intent = .ok (action, chain, token)) :
    edit.target (Intent.blank action chain token) = .ok (action, chain, token) := by
  obtain ⟨haction, hchain, htoken⟩ := target_eq_ok_iff_for.1 h
  refine target_eq_ok_iff_for.2 ⟨?_, ?_, ?_⟩
  · rw [haction]
    cases edit.action <;> rfl
  · unfold chainFor at hchain ⊢
    cases hid : edit.chainId with
    | none => rfl
    | some id => simpa only [hid] using hchain
  · cases hsymbol : edit.token with
    | none => exact tokenFor_of_kept hsymbol
    | some symbol =>
      unfold tokenFor at htoken ⊢
      simpa only [hsymbol] using htoken

/-- On a chain of the catalog an edit that names no token leads to one all the same. -/
theorem exists_tokenFor (hchain : chain ∈ Chain.all) (intent : Intent) :
    ∃ token, ({} : Edit).tokenFor intent chain = .ok token := by
  cases htoken : ({} : Edit).tokenFor intent chain with
  | ok token => exact ⟨token, rfl⟩
  | error error =>
    obtain ⟨symbol, hnamed, -⟩ := (tokenFor_eq_error_iff hchain).1 htoken
    cases hnamed

/-! ## The targets of the parts -/

theorem target_chainPart {id : Nat} (hchain : Chain.get id = .ok chain)
    (htoken : ({} : Edit).tokenFor intent chain = .ok token) :
    ({ chainId := some id } : Edit).target intent = .ok (intent.action, chain, token) :=
  target_eq_ok_iff_for.2 ⟨rfl, hchain, htoken⟩

theorem target_tokenPart {symbol : String} (htoken : Token.get intent.chain.id symbol = .ok token) :
    ({ token := some symbol } : Edit).target intent = .ok (intent.action, intent.chain, token) :=
  target_eq_ok_iff_for.2 ⟨rfl, rfl, htoken⟩

theorem target_actionPart (action : Action) (intent : Intent) :
    ({ action := some action } : Edit).target intent = .ok (action, intent.chain, intent.token) :=
  target_eq_ok_iff_for.2 ⟨rfl, rfl, tokenFor_of_kept rfl⟩

theorem target_amountPart (text : String) (intent : Intent) :
    ({ amount := some text } : Edit).target intent =
      .ok (intent.action, intent.chain, intent.token) :=
  target_eq_ok_iff_for.2 ⟨rfl, rfl, tokenFor_of_kept rfl⟩

end Edit

namespace Desk

variable {desk mid left right : Desk} {edit : Edit} {intent : Intent} {action action' : Action}
  {chain chain' : Chain} {token token' : Token}

/-- The desk has turned to the intent, in however many edits: it is as it was if the
intent is akin to its own, and has started over if not. -/
inductive Turned (desk : Desk) (intent : Intent) : Desk → Prop
  | kept (hakin : intent.Akin desk.intent) : Turned desk intent desk
  | restarted (epoch : Nat) (hother : ¬intent.Akin desk.intent) (hlater : desk.epoch < epoch) :
      Turned desk intent { desk with
        intent
        status := .idle
        bridge := .idle
        epoch
        inFlight := none
        lastError := none
        log := desk.log ++ Status.news desk.status .idle ++
          BridgeStatus.news desk.bridge .idle }

theorem Turned.akin (h : desk.Turned intent mid) : mid.intent.Akin intent := by
  cases h with
  | kept hakin => exact hakin.symm
  | restarted => exact Intent.Akin.refl intent

/-- Two desks that turned to one intent differ in their epochs at most. -/
theorem Turned.eq_withEpoch (hleft : desk.Turned intent left) (hright : desk.Turned intent right) :
    right = { left with epoch := right.epoch } := by
  cases hleft with
  | kept hakin =>
    cases hright with
    | kept => rfl
    | restarted _ hother => exact absurd hakin hother
  | restarted _ hother =>
    cases hright with
    | kept hakin => exact absurd hakin hother
    | restarted => rfl

theorem Turned.epoch_eq_iff (h : desk.Turned intent mid) :
    mid.epoch = desk.epoch ↔ intent.Akin desk.intent := by
  cases h with
  | kept hakin => exact iff_of_true rfl hakin
  | restarted epoch hother hlater => exact iff_of_false (Nat.ne_of_gt hlater) hother

theorem turned_reset (hother : ¬intent.Akin desk.intent) :
    desk.Turned intent (desk.reset intent) := by
  rw [reset_eq]
  exact .restarted _ hother (Nat.lt_succ_self _)

/-- One more edit turns the desk to its own target, unless it leads back from another
intent to the first one. -/
theorem Turned.edited (h : desk.Turned (Intent.blank action chain token) mid)
    (hlisted : (Intent.blank action chain token).Listed)
    (htarget : edit.target (Intent.blank action chain token) = .ok (action', chain', token'))
    (hamount : edit.amount = none)
    (hback : (Intent.blank action' chain' token').Akin desk.intent →
      (Intent.blank action chain token).Akin desk.intent) :
    ∃ last startsOver, mid.edit edit = .ok (last, startsOver) ∧
      desk.Turned (Intent.blank action' chain' token') last := by
  have hmid : mid.intent.Listed := hlisted.of_akin h.akin
  have hlisted' := Edit.listed_of_target htarget hlisted
  have hdiffers : differs mid.intent action' chain' token' = false ↔
      (Intent.blank action' chain' token').Akin mid.intent :=
    differs_eq_false_iff hlisted'.chain hmid
  rw [← edit.target_congr h.akin] at htarget
  refine ⟨_, _, edit_eq_ok_iff.2 ⟨action', chain', token', htarget, rfl, rfl⟩, ?_⟩
  rw [hamount]
  cases hstarts : differs mid.intent action' chain' token' with
  | false =>
    have hsame := hdiffers.1 hstarts
    cases h with
    | kept => exact .kept hsame
    | restarted epoch hother hlater =>
      obtain ⟨rfl, rfl, rfl⟩ := hsame
      exact .restarted epoch hother hlater
  | true =>
    have hother : ¬(Intent.blank action' chain' token').Akin mid.intent :=
      fun hsame => Bool.false_ne_true ((hdiffers.2 hsame).symm.trans hstarts)
    cases h with
    | kept => exact turned_reset hother
    | restarted epoch hfirst hlater =>
      -- To start over once more from an idle desk adds no event.
      have hagain := Turned.restarted (epoch + 1) (fun hsame => hfirst (hback hsame))
        (Nat.lt_succ_of_lt hlater)
      simpa [reset_eq, typeIf, BridgeStatus.news] using hagain

/-- The desk after the edits, if each of them is carried out. -/
def editAll (desk : Desk) : List Edit → Except FlowError Desk
  | [] => .ok desk
  | edit :: edits => (desk.edit edit).bind fun edited => edited.1.editAll edits

theorem editAll_append (desk : Desk) (early late : List Edit) :
    desk.editAll (early ++ late) = (desk.editAll early).bind (·.editAll late) := by
  induction early generalizing desk with
  | nil => rfl
  | cons edit early ih =>
    simp only [List.cons_append, editAll]
    cases desk.edit edit with
    | error error => rfl
    | ok edited => exact ih edited.1

/-- The same for a part that may be missing: then its target is where the desk is. -/
theorem Turned.part (h : desk.Turned (Intent.blank action chain token) mid)
    (hlisted : (Intent.blank action chain token).Listed) {part : Option Edit}
    (hmissing : part = none → Intent.blank action' chain' token' = Intent.blank action chain token)
    (hgiven : ∀ edit, part = some edit → edit.amount = none ∧
      edit.target (Intent.blank action chain token) = .ok (action', chain', token'))
    (hback : (Intent.blank action' chain' token').Akin desk.intent →
      (Intent.blank action chain token).Akin desk.intent) :
    ∃ last, mid.editAll part.toList = .ok last ∧
      desk.Turned (Intent.blank action' chain' token') last := by
  cases part with
  | none =>
    rw [hmissing rfl]
    exact ⟨mid, rfl, h⟩
  | some edit =>
    obtain ⟨hamount, htarget⟩ := hgiven edit rfl
    obtain ⟨last, startsOver, hedit, hturned⟩ := h.edited hlisted htarget hamount hback
    refine ⟨last, ?_, hturned⟩
    rw [Option.toList, editAll, hedit]
    rfl

/-- An amount alone is typed, whatever the intent. -/
theorem edit_amountPart (desk : Desk) (hlisted : desk.intent.Listed) (text : String) :
    desk.edit { amount := some text } = .ok (desk.typeAmount text, false) := by
  have hdiffers : differs desk.intent desk.intent.action desk.intent.chain desk.intent.token =
      false := (differs_eq_false_iff hlisted.chain hlisted).2 ⟨rfl, rfl, rfl⟩
  exact edit_eq_ok_iff.2 ⟨_, _, _, Edit.target_amountPart text desk.intent, hdiffers, rfl⟩

theorem editAll_amountPart (desk : Desk) (hlisted : desk.intent.Listed) (amount : Option String) :
    desk.editAll (amount.map fun text => { amount := some text }).toList =
      .ok (desk.typeIf amount) := by
  cases amount with
  | none => rfl
  | some text =>
    rw [Option.map_some, Option.toList, editAll, edit_amountPart desk hlisted]
    rfl

/-! ## The parts in order -/

theorem exists_chainPart (hlisted : desk.intent.Listed)
    (hchain : edit.chainFor desk.intent = .ok chain)
    (hcarried : ({} : Edit).tokenFor desk.intent chain = .ok token) :
    ∃ last, desk.editAll (edit.chainId.map fun id => { chainId := some id }).toList = .ok last ∧
      desk.Turned (Intent.blank desk.intent.action chain token) last := by
  have hown : (Intent.blank desk.intent.action desk.intent.chain desk.intent.token).Akin
      desk.intent := ⟨rfl, rfl, rfl⟩
  refine (Turned.kept hown).part (hlisted.of_akin hown) ?_ ?_ fun _ => hown
  · intro hmissing
    have hid : edit.chainId = none := Option.map_eq_none_iff.1 hmissing
    obtain rfl : desk.intent.chain = chain := by
      simpa only [Edit.chainFor, hid, Except.ok.injEq] using hchain
    obtain rfl : desk.intent.token = token :=
      Except.ok.inj ((Edit.tokenFor_of_kept rfl).symm.trans hcarried)
    rfl
  · intro part hpart
    obtain ⟨id, hid, rfl⟩ := Option.map_eq_some_iff.1 hpart
    refine ⟨rfl, Edit.target_chainPart ?_ hcarried⟩
    simpa only [Edit.chainFor, hid] using hchain

theorem Turned.tokenPart {carried : Token}
    (h : desk.Turned (Intent.blank desk.intent.action chain carried) mid)
    (hlisted : (Intent.blank desk.intent.action chain carried).Listed)
    (hcarried : ({} : Edit).tokenFor desk.intent chain = .ok carried)
    (htoken : edit.tokenFor desk.intent chain = .ok token) :
    ∃ last, mid.editAll (edit.token.map fun symbol => { token := some symbol }).toList =
        .ok last ∧ desk.Turned (Intent.blank desk.intent.action chain token) last := by
  refine h.part hlisted ?_ ?_ ?_
  · intro hmissing
    have hsymbol : edit.token = none := Option.map_eq_none_iff.1 hmissing
    simp only [Edit.tokenFor, hsymbol] at htoken hcarried
    obtain rfl : token = carried := Except.ok.inj (htoken.symm.trans hcarried)
    rfl
  · intro part hpart
    obtain ⟨symbol, hsymbol, rfl⟩ := Option.map_eq_some_iff.1 hpart
    have hget : Token.get chain.id symbol = .ok token := by
      simpa only [Edit.tokenFor, hsymbol] using htoken
    exact ⟨rfl, Edit.target_tokenPart hget⟩
  · -- Back on its own chain the desk would have kept its token.
    rintro ⟨-, -, rfl : chain = desk.intent.chain⟩
    exact ⟨rfl, Except.ok.inj (hcarried.symm.trans (Edit.tokenFor_of_kept rfl)), rfl⟩

theorem Turned.actionPart (h : desk.Turned (Intent.blank desk.intent.action chain token) mid)
    (hlisted : (Intent.blank desk.intent.action chain token).Listed) (edit : Edit) :
    ∃ last, mid.editAll (edit.action.map fun action => { action := some action }).toList =
        .ok last ∧
      desk.Turned (Intent.blank (edit.action.getD desk.intent.action) chain token) last := by
  refine h.part hlisted ?_ ?_ fun hback => ⟨rfl, hback.token, hback.chain⟩
  · intro hmissing
    rw [Option.map_eq_none_iff.1 hmissing]
    rfl
  · intro part hpart
    obtain ⟨action, haction, rfl⟩ := Option.map_eq_some_iff.1 hpart
    rw [haction]
    exact ⟨rfl, Edit.target_actionPart action _⟩

/-- The parts of an edit turn the desk to the target of the edit, and type its amount. -/
theorem editAll_parts (hlisted : desk.intent.Listed)
    (htarget : edit.target desk.intent = .ok (action, chain, token)) :
    ∃ turned, desk.Turned (Intent.blank action chain token) turned ∧
      desk.editAll edit.parts = .ok (turned.typeIf edit.amount) := by
  obtain ⟨rfl, hchain, htoken⟩ := Edit.target_eq_ok_iff_for.1 htarget
  have hmem := Edit.mem_all_of_chainFor hchain hlisted
  obtain ⟨carried, hcarried⟩ := Edit.exists_tokenFor hmem desk.intent
  have hlistedToken := Edit.mem_listed_of_tokenFor htoken hlisted
  obtain ⟨onChain, hchainPart, hturnedChain⟩ := exists_chainPart hlisted hchain hcarried
  obtain ⟨onToken, htokenPart, hturnedToken⟩ := hturnedChain.tokenPart
    ⟨hmem, Edit.mem_listed_of_tokenFor hcarried hlisted⟩ hcarried htoken
  obtain ⟨turned, hactionPart, hturned⟩ := hturnedToken.actionPart ⟨hmem, hlistedToken⟩ edit
  have hlistedTurned : turned.intent.Listed :=
    (Edit.listed_of_target htarget hlisted).of_akin hturned.akin
  refine ⟨turned, hturned, ?_⟩
  simp only [Edit.parts, editAll_append, hchainPart, Except.bind, htokenPart, hactionPart]
  exact editAll_amountPart turned hlistedTurned edit.amount

/-! ## The edit at once -/

theorem turned_of_edit {edited : Desk} {startsOver : Bool} (hlisted : desk.intent.Listed)
    (h : desk.edit edit = .ok (edited, startsOver)) :
    ∃ action chain token turned, edit.target desk.intent = .ok (action, chain, token) ∧
      desk.Turned (Intent.blank action chain token) turned ∧
      edited = turned.typeIf edit.amount := by
  obtain ⟨action, chain, token, htarget, ⟨-, hother, rfl⟩ | ⟨-, hakin, rfl⟩⟩ :=
    edit_cases hlisted h
  · exact ⟨action, chain, token, _, htarget, turned_reset hother, rfl⟩
  · exact ⟨action, chain, token, _, htarget, .kept hakin, rfl⟩

theorem typeIf_withEpoch (desk : Desk) (epoch : Nat) (amount : Option String) :
    { desk with epoch }.typeIf amount = { desk.typeIf amount with epoch } := by
  rw [typeIf_eq, typeIf_eq]

/-- Typed again, an amount changes nothing. -/
theorem typeIf_typeIf (desk : Desk) (amount : Option String) :
    (desk.typeIf amount).typeIf amount = desk.typeIf amount := by
  have hstatus :
      (desk.status.afterEdit amount).afterEdit amount = desk.status.afterEdit amount := by
    cases amount with
    | none => rfl
    | some text => cases desk.status <;> rfl
  have herror : (amount.isSome && (desk.status.afterEdit amount).isTerminal) = false := by
    cases amount with
    | none => rfl
    | some text => cases desk.status <;> rfl
  have hintent : (desk.intent.typeIf amount).typeIf amount = desk.intent.typeIf amount := by
    cases amount <;> rfl
  simp [typeIf_eq, hstatus, herror, hintent]

theorem editAll_parts_of_edit {edited : Desk} {startsOver : Bool} (hlisted : desk.intent.Listed)
    (h : desk.edit edit = .ok (edited, startsOver)) :
    ∃ epoch, desk.editAll edit.parts = .ok { edited with epoch } ∧
      (epoch = desk.epoch ↔ edited.epoch = desk.epoch) := by
  obtain ⟨action, chain, token, once, htarget, honce, rfl⟩ := turned_of_edit hlisted h
  obtain ⟨turned, hturned, hparts⟩ := editAll_parts hlisted htarget
  refine ⟨turned.epoch, ?_, ?_⟩
  · rw [hparts, honce.eq_withEpoch hturned, typeIf_withEpoch]
  · rw [typeIf_epoch, hturned.epoch_eq_iff, honce.epoch_eq_iff]

/-- An edit that was carried out changes nothing when it comes again. -/
theorem edit_again {edited : Desk} {startsOver : Bool} (hlisted : desk.intent.Listed)
    (h : desk.edit edit = .ok (edited, startsOver)) : edited.edit edit = .ok (edited, false) := by
  obtain ⟨action, chain, token, once, htarget, honce, rfl⟩ := turned_of_edit hlisted h
  have hakin : (once.typeIf edit.amount).intent.Akin (Intent.blank action chain token) := by
    rw [typeIf_eq]
    exact (once.intent.akin_typeIf edit.amount).trans honce.akin
  have hlistedTarget := Edit.listed_of_target htarget hlisted
  refine edit_eq_ok_iff.2 ⟨action, chain, token, ?_, ?_, ?_⟩
  · rw [edit.target_congr hakin]
    exact Edit.target_of_target htarget
  · exact (differs_eq_false_iff hlistedTarget.chain (hlistedTarget.of_akin hakin)).2 hakin.symm
  · exact (typeIf_typeIf once edit.amount).symm

end Desk

namespace Flow

variable {flow : Flow} {account : Option Address} {edit : Edit}

/-- The flow after the edits, if each of them is carried out. -/
def editAll (flow : Flow) (account : Option Address) : List Edit → Except FlowError Flow
  | [] => .ok flow
  | edit :: edits =>
    (flow.edit account edit).2.1.bind fun _ => (flow.edit account edit).1.editAll account edits

theorem editAll_eq (flow : Flow) (account : Option Address) (edits : List Edit) :
    flow.editAll account edits = (flow.desk.editAll edits).map fun desk => { flow with desk } := by
  induction edits generalizing flow with
  | nil => rfl
  | cons edit edits ih =>
    simp only [editAll, Desk.editAll, Flow.edit, ih]
    cases flow.desk.edit edit <;> rfl

/-- An edit that is accepted leads to the same flow as an edit of its own for each of
its fields, in the order chain, token, action and amount, all of which are accepted:
what is under way, the intent, the statuses, the error and every event are the same.
Only the epoch may be another one, as more of the parts may start over, but not
without the edit at once doing so too.  When the accepted edit comes again right away,
nothing changes at all and nothing is read. -/
theorem edit_same_in_parts_and_again (settings : Settings) (moves : List Move)
    (account : Option Address) (edit : Edit) :
    let flow := ({} : Flow).reached settings moves
    ∀ intent, (flow.edit account edit).2.1 = .ok intent →
      let once := (flow.edit account edit).1
      (∃ epoch, flow.editAll account edit.parts =
          .ok { once with desk := { once.desk with epoch } } ∧
        (epoch = flow.desk.epoch ↔ once.desk.epoch = flow.desk.epoch)) ∧
      ∀ later, once.edit later edit = (once, .ok intent, []) := by
  intro flow intent hresult once
  have hlisted : flow.desk.intent.Listed := listed_reached settings moves
  obtain ⟨desk, startsOver, hedit, rfl, hflow⟩ := edit_eq_of_ok hresult
  have honce : once = { flow with desk } := congrArg Prod.fst hflow
  refine ⟨?_, fun later => ?_⟩
  · obtain ⟨epoch, hparts, hepoch⟩ := Desk.editAll_parts_of_edit hlisted hedit
    refine ⟨epoch, ?_, ?_⟩
    · rw [editAll_eq, hparts, honce]
      rfl
    · rw [honce]
      exact hepoch
  · rw [honce, Flow.edit, Desk.edit_again hlisted hedit]
    cases later <;> rfl

/-- With an execution in flight, all four fields at once start over a single time and
in their parts three times, with the same outcome. -/
theorem edit_same_in_parts_and_again_of_acceptedRun :
    let flow := ({} : Flow).reached trialSettings acceptedRun
    let edit : Edit :=
      { action := some .stake, chainId := some 1, token := some "usdc", amount := some "2" }
    let once := (flow.edit none edit).1
    (flow.edit none edit).2.1 = .ok once.desk.intent ∧
      edit.parts = [{ chainId := some 1 }, { token := some "usdc" }, { action := some .stake },
        { amount := some "2" }] ∧
      flow.editAll none edit.parts =
        .ok { once with desk := { once.desk with epoch := once.desk.epoch + 2 } } ∧
      once.edit none edit = (once, .ok once.desk.intent, []) := by
  intro flow edit once
  have hok : (flow.edit none edit).2.1 = .ok once.desk.intent := by decide +kernel
  obtain ⟨⟨epoch, hparts, -⟩, hagain⟩ :=
    edit_same_in_parts_and_again trialSettings acceptedRun none edit once.desk.intent hok
  have hepoch : (flow.editAll none edit.parts).map (·.desk.epoch) = .ok (once.desk.epoch + 2) := by
    decide +kernel
  have hparts : flow.editAll none edit.parts =
      .ok { once with desk := { once.desk with epoch } } := hparts
  rw [hparts] at hepoch
  obtain rfl : epoch = once.desk.epoch + 2 := Except.ok.inj hepoch
  exact ⟨hok, rfl, hparts, hagain none⟩

end Flow

end DonationFlow
