import DonationFlow.Proofs.Edit
import DonationFlow.Proofs.Flow.Acceptance

/-!
# What an edit does

An edit is rejected and leaves everything, or it leads to the intent of its target.
If action, chain and token are those of the present intent, it does nothing but type
its amount; if not, it starts over, whatever is under way.  Main statement:
`edit_atomic_and_restarts_iff_differs`.
-/

namespace DonationFlow

/-- The intent with the amount typed, if there is one. -/
def Intent.typeIf (intent : Intent) : Option String → Intent
  | some text => intent.withAmount text
  | none => intent

theorem Intent.akin_typeIf (intent : Intent) (amount : Option String) :
    (intent.typeIf amount).Akin intent := by
  cases amount with
  | none => exact Intent.Akin.refl intent
  | some text => exact intent.akin_withAmount text

/-- An amount that is typed is read with the decimals of the token. -/
theorem Intent.typeIf_amount {intent : Intent} {amount : Option String} {text : String}
    (h : amount = some text) : (intent.typeIf amount).text = text ∧
      (intent.typeIf amount).units =
        Amount.toUnits text (intent.typeIf amount).token.decimals := by
  rw [h]
  exact ⟨rfl, rfl⟩

/-- The status once the amount of an edit was typed, if it has one. -/
def Status.afterEdit (status : Status) (amount : Option String) : Status :=
  if amount.isSome && status.isTerminal then .idle else status

namespace Desk

variable {desk edited : Desk} {edit : Edit} {startsOver : Bool} {action : Action}
  {chain : Chain} {token : Token}

/-- An edit starts over exactly if it leads to an intent that is not akin. -/
theorem differs_eq_false_iff {intent : Intent} (hchain : chain ∈ Chain.all)
    (hlisted : intent.Listed) :
    differs intent action chain token = false ↔
      (Intent.blank action chain token).Akin intent := by
  simp only [differs, Bool.or_eq_false_iff, decide_eq_false_iff_not, ne_eq, Decidable.not_not]
  constructor
  · rintro ⟨⟨haction, hid⟩, htoken⟩
    exact ⟨haction, htoken, Chain.eq_of_id hchain hlisted.chain hid⟩
  · rintro ⟨haction, htoken, hsame⟩
    exact ⟨⟨haction, congrArg Chain.id hsame⟩, htoken⟩

theorem edit_eq_error_iff {error : FlowError} :
    desk.edit edit = .error error ↔ edit.target desk.intent = .error error := by
  rw [Desk.edit]
  cases edit.target desk.intent with
  | error cause => simp [bind, Except.bind]
  | ok target => simp [bind, Except.bind, pure, Except.pure]

/-- An edit that does not start over types its amount and touches nothing else. -/
theorem typeIf_eq (desk : Desk) (amount : Option String) :
    desk.typeIf amount =
      { desk with
        intent := desk.intent.typeIf amount
        status := desk.status.afterEdit amount
        lastError := if amount.isSome && desk.status.isTerminal then none else desk.lastError
        log := desk.log ++ Status.news desk.status (desk.status.afterEdit amount) } := by
  cases amount with
  | none => simp [typeIf, Intent.typeIf, Status.afterEdit]
  | some text => simp [typeIf, typeAmount_eq, Intent.typeIf, Status.afterEdit, Status.afterTyping]

/-- An edit that starts over leaves nothing of what was under way. -/
theorem typeIf_reset_eq (desk : Desk) (intent : Intent) (amount : Option String) :
    (desk.reset intent).typeIf amount =
      { desk with
        intent := intent.typeIf amount
        status := .idle
        bridge := .idle
        epoch := desk.epoch + 1
        inFlight := none
        lastError := none
        log := desk.log ++ Status.news desk.status .idle ++
          BridgeStatus.news desk.bridge .idle } := by
  have hidle : Status.afterEdit .idle amount = .idle := by cases amount <;> rfl
  rw [typeIf_eq, reset_eq]
  simp [hidle]

/-- The two ways of an edit that is carried out: its target is another intent than
the present one, with which it starts over, or it is akin to it. -/
theorem edit_cases (hlisted : desk.intent.Listed)
    (h : desk.edit edit = .ok (edited, startsOver)) :
    ∃ action chain token, edit.target desk.intent = .ok (action, chain, token) ∧
      ((startsOver = true ∧ ¬(Intent.blank action chain token).Akin desk.intent ∧
          edited = (desk.reset (Intent.blank action chain token)).typeIf edit.amount) ∨
        (startsOver = false ∧ (Intent.blank action chain token).Akin desk.intent ∧
          edited = desk.typeIf edit.amount)) := by
  obtain ⟨action, chain, token, htarget, hdiffers, hedited⟩ := edit_eq_ok_iff.1 h
  have hakin : differs desk.intent action chain token = false ↔
      (Intent.blank action chain token).Akin desk.intent :=
    differs_eq_false_iff (Edit.listed_of_target htarget hlisted).chain hlisted
  refine ⟨action, chain, token, htarget, ?_⟩
  cases startsOver with
  | true =>
    have hother : ¬(Intent.blank action chain token).Akin desk.intent :=
      fun hsame => Bool.false_ne_true ((hakin.2 hsame).symm.trans hdiffers)
    exact Or.inl ⟨rfl, hother, hedited⟩
  | false => exact Or.inr ⟨rfl, hakin.1 hdiffers, hedited⟩

/-- Whether it starts over or not, an edit leads to the intent of its target. -/
theorem edited_leads (hlisted : desk.intent.Listed)
    (h : desk.edit edit = .ok (edited, startsOver)) :
    edited.intent.action = edit.action.getD desk.intent.action ∧
      edit.Leads desk.intent edited.intent.chain ∧
      edit.Chooses desk.intent edited.intent.chain edited.intent.token ∧
      ∀ text, edit.amount = some text → edited.intent.text = text ∧
        edited.intent.units = Amount.toUnits text edited.intent.token.decimals := by
  obtain ⟨action, chain, token, htarget, hways⟩ := edit_cases hlisted h
  obtain ⟨haction, hleads, hchooses⟩ := (Edit.target_eq_ok_iff hlisted).1 htarget
  obtain ⟨base, hbase, htyped⟩ : ∃ base : Intent, base.Akin (Intent.blank action chain token) ∧
      edited.intent = base.typeIf edit.amount := by
    obtain ⟨-, -, rfl⟩ | ⟨-, hakin, rfl⟩ := hways
    · exact ⟨_, Intent.Akin.refl _, by rw [typeIf_reset_eq]⟩
    · exact ⟨_, hakin.symm, by rw [typeIf_eq]⟩
  have hled : edited.intent.Akin (Intent.blank action chain token) :=
    htyped ▸ (base.akin_typeIf _).trans hbase
  refine ⟨hled.action.trans haction, ?_, ?_, ?_⟩
  · rw [hled.chain]
    exact hleads
  · rw [hled.chain, hled.token]
    exact hchooses
  · rw [htyped]
    exact fun _ => Intent.typeIf_amount

/-- An edit after which the intent is another started over. -/
theorem edited_of_not_akin (hlisted : desk.intent.Listed)
    (h : desk.edit edit = .ok (edited, startsOver)) (hother : ¬edited.intent.Akin desk.intent) :
    startsOver = true ∧
      (edit.amount = none → edited.intent.text = "" ∧ edited.intent.units = Word.zero) ∧
      edited = { desk with
        intent := edited.intent
        status := .idle
        bridge := .idle
        epoch := desk.epoch + 1
        inFlight := none
        lastError := none
        log := desk.log ++ Status.news desk.status .idle ++
          BridgeStatus.news desk.bridge .idle } := by
  obtain ⟨action, chain, token, -, ⟨hstarts, -, rfl⟩ | ⟨-, -, rfl⟩⟩ := edit_cases hlisted h
  · rw [typeIf_reset_eq]
    refine ⟨hstarts, fun hnone => ?_, rfl⟩
    rw [hnone]
    exact ⟨rfl, rfl⟩
  · rw [typeIf_eq] at hother
    exact absurd (desk.intent.akin_typeIf _) hother

/-- An edit after which action, chain and token are the same has typed its amount. -/
theorem edited_of_akin (hlisted : desk.intent.Listed)
    (h : desk.edit edit = .ok (edited, startsOver)) (hakin : edited.intent.Akin desk.intent) :
    startsOver = false ∧ (edit.amount = none → edited.intent = desk.intent) ∧
      edited = { desk with
        intent := edited.intent
        status := desk.status.afterEdit edit.amount
        lastError := if edit.amount.isSome && desk.status.isTerminal then none
          else desk.lastError
        log := desk.log ++ Status.news desk.status (desk.status.afterEdit edit.amount) } := by
  obtain ⟨action, chain, token, -, ⟨-, hother, rfl⟩ | ⟨hstarts, -, rfl⟩⟩ := edit_cases hlisted h
  · rw [typeIf_reset_eq] at hakin
    exact absurd ((Intent.akin_typeIf _ _).symm.trans hakin) hother
  · rw [typeIf_eq]
    refine ⟨hstarts, fun hnone => ?_, rfl⟩
    rw [hnone]
    rfl

end Desk

namespace Flow

variable {flow : Flow} {account : Option Address} {edit : Edit} {intent : Intent}

theorem edit_eq_error_iff {error : FlowError} :
    (flow.edit account edit).2.1 = .error error ↔ flow.desk.edit edit = .error error := by
  unfold Flow.edit
  cases flow.desk.edit edit <;> simp

theorem eq_of_edit_eq_error {error : FlowError} (h : (flow.edit account edit).2.1 = .error error) :
    (flow.edit account edit).1 = flow ∧ (flow.edit account edit).2.2 = [] := by
  rw [edit_eq_error_iff] at h
  unfold Flow.edit
  rw [h]
  exact ⟨rfl, rfl⟩

/-- An edit that is carried out shows the intent it leads to, whose reads are renewed
if the edit started over. -/
theorem edit_eq_of_ok (h : (flow.edit account edit).2.1 = .ok intent) :
    ∃ desk startsOver, flow.desk.edit edit = .ok (desk, startsOver) ∧ desk.intent = intent ∧
      flow.edit account edit = ({ flow with desk }, .ok intent,
        if startsOver then (account.map (Effect.reread · intent)).toList else []) := by
  cases hedit : flow.desk.edit edit with
  | error error => cases (edit_eq_error_iff.2 hedit).symm.trans h
  | ok edited =>
    obtain ⟨desk, startsOver⟩ := edited
    simp only [Flow.edit, hedit, Except.ok.injEq] at h
    refine ⟨desk, startsOver, rfl, h, ?_⟩
    simp only [Flow.edit, hedit, ← h]
    cases account <;> cases startsOver <;> rfl

/-- An edit is answered with an error exactly if it is rejected, and then leaves
everything and reads nothing.  Otherwise it leads to the chain and the token of its
target, and the amount that it has is read with the decimals of that token.  If the
intent came to be another, whatever was under way is dropped: the epoch is advanced,
status and bridge status are idle, and the error and an amount that was not typed
anew are gone.  If not, only the amount is typed, which leaves a final status and
the error with it. -/
theorem edit_atomic_and_restarts_iff_differs (settings : Settings) (moves : List Move)
    (account : Option Address) (edit : Edit) :
    let flow := ({} : Flow).reached settings moves
    let present := flow.desk.intent
    let after := (flow.edit account edit).1
    let result := (flow.edit account edit).2.1
    let effects := (flow.edit account edit).2.2
    (∀ error, result = .error error ↔ edit.Rejects present error) ∧
    (∀ error, result = .error error → after = flow ∧ effects = []) ∧
    ∀ intent, result = .ok intent →
      intent.action = edit.action.getD present.action ∧
      edit.Leads present intent.chain ∧ edit.Chooses present intent.chain intent.token ∧
      (∀ text, edit.amount = some text →
        intent.text = text ∧ intent.units = Amount.toUnits text intent.token.decimals) ∧
      (¬intent.Akin present →
        (edit.amount = none → intent.text = "" ∧ intent.units = Word.zero) ∧
        after = { flow with
          desk := { flow.desk with
            intent
            status := .idle
            bridge := .idle
            epoch := flow.desk.epoch + 1
            inFlight := none
            lastError := none
            log := flow.desk.log ++ Status.news flow.desk.status .idle ++
              BridgeStatus.news flow.desk.bridge .idle } } ∧
        effects = (account.map (Effect.reread · intent)).toList) ∧
      (intent.Akin present →
        let status := if edit.amount.isSome && flow.desk.status.isTerminal then .idle
          else flow.desk.status
        (edit.amount = none → intent = present) ∧
        after = { flow with
          desk := { flow.desk with
            intent
            status
            lastError := if edit.amount.isSome && flow.desk.status.isTerminal then none
              else flow.desk.lastError
            log := flow.desk.log ++ Status.news flow.desk.status status } } ∧
        effects = []) := by
  intro flow present after result effects
  have hlisted : present.Listed := listed_reached settings moves
  refine ⟨fun error => ?_, fun error => eq_of_edit_eq_error, ?_⟩
  · exact edit_eq_error_iff.trans (Desk.edit_eq_error_iff.trans (Edit.target_eq_error_iff hlisted))
  intro intent hresult
  obtain ⟨desk, startsOver, hedit, rfl, hflow⟩ := edit_eq_of_ok hresult
  have hafter : after = { flow with desk } := congrArg Prod.fst hflow
  have heffects : effects = if startsOver then
      (account.map (Effect.reread · desk.intent)).toList else [] :=
    congrArg (·.2.2) hflow
  obtain ⟨haction, hleads, hchooses, hamount⟩ := Desk.edited_leads hlisted hedit
  refine ⟨haction, hleads, hchooses, hamount, fun hother => ?_, fun hakin => ?_⟩
  · obtain ⟨rfl, hblank, hdesk⟩ := Desk.edited_of_not_akin hlisted hedit hother
    exact ⟨hblank, hafter.trans (by rw [← hdesk]), heffects⟩
  · obtain ⟨rfl, hkept, hdesk⟩ := Desk.edited_of_akin hlisted hedit hakin
    exact ⟨hkept, hafter.trans (by rw [hdesk]; rfl), heffects⟩

/-- While an execution is in flight an unknown token is rejected, another chain
carries the token over and starts over, and another amount of the token is typed. -/
theorem edit_atomic_and_restarts_iff_differs_of_acceptedRun :
    let flow := ({} : Flow).reached trialSettings acceptedRun
    let unknown : Edit := { token := some "DOGE" }
    let moved : Edit := { chainId := some 1 }
    let retyped : Edit := { token := some "eth", amount := some "2" }
    let carried := Intent.blank .donate
      (Chain.relayed 1 "Ethereum" "ETH" .layerZero (some 30101) 180 2) (Token.native "ETH")
    let typed := flow.desk.intent.withAmount "2"
    ((flow.edit none unknown).2.1 = .error (.unknownToken "DOGE" 8453) ∧
      unknown.Rejects flow.desk.intent (.unknownToken "DOGE" 8453) ∧
      (flow.edit none unknown).1 = flow) ∧
    ((flow.edit none moved).2.1 = .ok carried ∧
      moved.Chooses flow.desk.intent carried.chain carried.token ∧
      flow.desk.inFlight ≠ none ∧ (flow.edit none moved).1.desk.inFlight = none ∧
      (flow.edit none moved).1.desk.epoch = flow.desk.epoch + 1) ∧
    (flow.edit none retyped).2.1 = .ok typed ∧
      typed.units = Amount.toUnits "2" typed.token.decimals ∧
      (flow.edit none retyped).1.desk.inFlight = flow.desk.inFlight ∧
      (flow.edit none retyped).1.desk.epoch = flow.desk.epoch := by
  intro flow unknown moved retyped carried typed
  -- The edits as the theorem speaks of them.
  have hedit : ∀ edit, (({} : Flow).reached trialSettings acceptedRun).edit none edit =
      flow.edit none edit := fun _ => rfl
  have edits := edit_atomic_and_restarts_iff_differs trialSettings acceptedRun none
  simp only [hedit] at edits
  refine ⟨?_, ?_, ?_⟩
  · obtain ⟨hrejects, hleaves, -⟩ := edits unknown
    have herror : (flow.edit none unknown).2.1 = .error (.unknownToken "DOGE" 8453) := by
      decide +kernel
    exact ⟨herror, (hrejects _).1 herror, (hleaves _ herror).1⟩
  · obtain ⟨-, -, hdone⟩ := edits moved
    have hok : (flow.edit none moved).2.1 = .ok carried := by decide +kernel
    have hother : ¬carried.Akin flow.desk.intent := fun hakin =>
      absurd (congrArg Chain.id hakin.chain) (by decide +kernel)
    obtain ⟨-, -, hchooses, -, hrestarts, -⟩ := hdone carried hok
    obtain ⟨-, hafter, -⟩ := hrestarts hother
    refine ⟨hok, hchooses, by decide +kernel, ?_, ?_⟩
    · rw [hafter]
    · rw [hafter]
  · obtain ⟨-, -, hdone⟩ := edits retyped
    have hok : (flow.edit none retyped).2.1 = .ok typed := by decide +kernel
    obtain ⟨-, -, -, htyped, -, hstays⟩ := hdone typed hok
    obtain ⟨-, hafter, -⟩ := hstays (flow.desk.intent.akin_withAmount "2")
    refine ⟨hok, (htyped "2" rfl).2, ?_, ?_⟩
    · rw [hafter]
    · rw [hafter]

end Flow

end DonationFlow
