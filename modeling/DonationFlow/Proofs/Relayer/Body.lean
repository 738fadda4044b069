import DonationFlow.Proofs.Flow.History
import DonationFlow.Proofs.Json.Text
import DonationFlow.Proofs.Plan
import DonationFlow.Relayer

/-!
# What a posted call tells

The relayer is told of a call by the text of one JSON object.  Words and
addresses are known by their texts, a call by its function and arguments, and so
the chain and the request by the object.  Together with the catalog, from which
the rows that name no token or no amount are filled in, the text tells all of an
intent that is planned but how its amount was typed.  Main statement:
`posted_text_tells_intent`.
-/

namespace DonationFlow

/-! ## Values -/

theorem Word.toJson_inj {left right : Word} : left.toJson = right.toJson ↔ left = right := by
  rw [Word.toJson, Word.toJson, Json.str.injEq, Text.hexNumber_inj, Word.ext_iff]

theorem Word.plain_toJson (word : Word) : word.toJson.Plain := .str _

theorem Address.toJson_inj {left right : Address} :
    left.toJson = right.toJson ↔ left = right := by
  simp only [Address.toJson, Json.str.injEq, Address.text, String.ofList_inj, List.cons.injEq,
    true_and, Text.hexPadded_inj, Address.ext_iff]

theorem Address.plain_toJson (address : Address) : address.toJson.Plain := .str _

theorem Json.nat_inj {left right : Nat} : Json.nat left = Json.nat right ↔ left = right := by
  rw [Json.nat, Json.nat, Json.int.injEq, Int.natCast_inj]

/-- A contract and the lack of one are written apart. -/
theorem Json.ofOption_address_inj {left right : Option Address} :
    Json.ofOption Address.toJson left = Json.ofOption Address.toJson right ↔ left = right := by
  cases left with
  | none => cases right <;> simp [Json.ofOption, Address.toJson]
  | some address =>
    cases right with
    | none => simp [Json.ofOption, Address.toJson]
    | some other => simp [Json.ofOption, Address.toJson_inj]

theorem Json.plain_ofOption_address (address : Option Address) :
    (Json.ofOption Address.toJson address).Plain := by
  cases address with
  | none => exact .null
  | some address => exact address.plain_toJson

/-! ## Calls -/

theorem Call.plain_toJson (call : Call) : call.toJson.Plain := by
  refine .obj ?_
  cases call <;>
    simp [Call.entries, Word.plain_toJson, Address.plain_toJson, Json.plain_ofOption_address,
      Json.Plain.str, Json.nat, Json.Plain.int]

/-- Calls of different functions are told apart by the first entry, and those of
one function by their arguments. -/
theorem Call.toJson_inj {left right : Call} : left.toJson = right.toJson ↔ left = right := by
  rw [Call.toJson, Call.toJson, Json.obj.injEq]
  cases left <;> cases right <;>
    simp [Call.entries, Word.toJson_inj, Address.toJson_inj, Json.nat_inj,
      Json.ofOption_address_inj]

namespace Relayer

theorem body_inj {chainId otherId : Nat} {request other : CallRequest} :
    body chainId request = body otherId other ↔ chainId = otherId ∧ request = other := by
  obtain ⟨target, value, call⟩ := request
  obtain ⟨otherTarget, otherValue, otherCall⟩ := other
  simp [body, Word.toJson_inj, Address.toJson_inj, Json.nat_inj, Call.toJson_inj]

theorem plain_body (chainId : Nat) (request : CallRequest) : (body chainId request).Plain := by
  refine .obj ?_
  simp [Word.plain_toJson, Address.plain_toJson, Call.plain_toJson, Json.nat, Json.Plain.int]

/-- The text that is posted when a call is handed in. -/
def postedText (relayer : Relayer) (chainId : Nat) (request : CallRequest) (line : Http.Line) :
    Option String :=
  (relayer.handIn chainId request line).1.posted.head?.map (·.body.render)

@[simp] theorem postedText_eq (relayer : Relayer) (chainId : Nat) (request : CallRequest)
    (line : Http.Line) :
    relayer.postedText chainId request line = some (body chainId request).render := rfl

theorem eq_of_postedText_eq {relayer otherRelayer : Relayer} {chainId otherId : Nat}
    {request other : CallRequest} {line otherLine : Http.Line}
    (h : relayer.postedText chainId request line =
      otherRelayer.postedText otherId other otherLine) :
    chainId = otherId ∧ request = other := by
  rw [postedText_eq, postedText_eq] at h
  exact body_inj.1 ((plain_body chainId request).eq_of_render_eq (plain_body otherId other)
    (Option.some.inj h))

/-- The text posted for a request tells the chain and the request, an approval
included.  Where it is posted for the plan of an intent, it tells the action,
the chain, the token and the amount. -/
theorem posted_text_tells_intent (settings : Settings) :
    (∀ (relayer otherRelayer : Relayer) (line otherLine : Http.Line) (chainId otherId : Nat)
        (request other : CallRequest),
      relayer.postedText chainId request line = otherRelayer.postedText otherId other otherLine →
        chainId = otherId ∧ request = other) ∧
    ∀ (relayer otherRelayer : Relayer) (line otherLine : Http.Line) (left right : Intent)
        (leftPlan rightPlan : Plan), left.Listed → right.Listed →
      Plan.ofIntent left settings.campaign settings.contracts = .ok leftPlan →
      Plan.ofIntent right settings.campaign settings.contracts = .ok rightPlan →
      relayer.postedText left.chain.id leftPlan.request line =
        otherRelayer.postedText right.chain.id rightPlan.request otherLine →
      left.action = right.action ∧ left.chain = right.chain ∧ left.token = right.token ∧
        left.units = right.units := by
  refine ⟨fun relayer otherRelayer line otherLine chainId otherId request other =>
    eq_of_postedText_eq, ?_⟩
  intro relayer otherRelayer line otherLine left right leftPlan rightPlan hleft hright hplan
    hother htext
  obtain ⟨hid, hrequest⟩ := eq_of_postedText_eq htext
  have hakin := Plan.akin_of_request_eq hright hleft hother hplan hid hrequest
  have hunits := (Plan.request_eq_iff hakin hother hplan).1 hrequest
  exact ⟨hakin.action, hakin.chain, hakin.token, hunits⟩

/-- A stake of the native asset from Ethereum, its amount typed in this way. -/
def trialStake (text : String) : Intent :=
  (Intent.blank .stake (Chain.relayed 1 "Ethereum" "ETH" .layerZero (some 30101) 180 2)
    (Token.native "ETH")).withAmount text

def trialRelayer : Relayer := ⟨"", ⟨{}, default, Chain.settlementId⟩, 1, 1⟩

/-- A relayed stake is posted in one text, however its amount is typed. -/
theorem posted_text_tells_intent_of_stake :
    (trialStake "0.5").text ≠ (trialStake "0.50").text ∧ (trialStake "0.5").Listed ∧
      (trialStake "0.50").Listed ∧
      ∃ leftPlan rightPlan,
        Plan.ofIntent (trialStake "0.5") Flow.bridgeSettings.campaign
          Flow.bridgeSettings.contracts = .ok leftPlan ∧
        Plan.ofIntent (trialStake "0.50") Flow.bridgeSettings.campaign
          Flow.bridgeSettings.contracts = .ok rightPlan ∧
        trialRelayer.postedText (trialStake "0.5").chain.id leftPlan.request {} =
          trialRelayer.postedText (trialStake "0.50").chain.id rightPlan.request {} ∧
        (trialStake "0.5").action = (trialStake "0.50").action ∧
        (trialStake "0.5").chain = (trialStake "0.50").chain ∧
        (trialStake "0.5").token = (trialStake "0.50").token ∧
        (trialStake "0.5").units = (trialStake "0.50").units := by
  have hleft : (trialStake "0.5").Listed := ⟨by decide, by decide⟩
  have hright : (trialStake "0.50").Listed := ⟨by decide, by decide⟩
  have hsame : Plan.ofIntent (trialStake "0.50") Flow.bridgeSettings.campaign
      Flow.bridgeSettings.contracts =
        Plan.ofIntent (trialStake "0.5") Flow.bridgeSettings.campaign
          Flow.bridgeSettings.contracts :=
    Plan.ofIntent_congr ⟨rfl, rfl, rfl⟩ (by decide +kernel)
  obtain ⟨plan, hplan⟩ : ∃ plan, Plan.ofIntent (trialStake "0.5") Flow.bridgeSettings.campaign
      Flow.bridgeSettings.contracts = .ok plan := Flow.exists_of_isOk (by decide +kernel)
  have htext : trialRelayer.postedText (trialStake "0.5").chain.id plan.request {} =
      trialRelayer.postedText (trialStake "0.50").chain.id plan.request {} := rfl
  exact ⟨by decide, hleft, hright, plan, plan, hplan, hsame.trans hplan, htext,
    (posted_text_tells_intent Flow.bridgeSettings).2 trialRelayer trialRelayer {} {} _ _ plan plan
      hleft hright hplan (hsame.trans hplan) htext⟩

end Relayer

end DonationFlow
