import DonationFlow.Proofs.Desk.Telling
import Mathlib.Data.List.Chain

/-!
# What is told of the bridge status

Each operation tells every change of the bridge status and nothing else of it,
so that what was told leads from the status before to the one after.  `Leads`
says so of any value that is told whenever it changes.
-/

namespace DonationFlow

/-- The bridge status that an event tells. -/
def Event.bridge? : Event → Option BridgeStatus
  | .bridge told => some told
  | _ => none

/-- What was told leads from the old value to the new one, by changes that the
relation allows. -/
structure Leads {α : Type} (allowed : α → α → Prop) (old : α) (told : List α) (new : α) :
    Prop where
  chain : (old :: told).IsChain allowed
  last : (old :: told).getLast? = some new

namespace Leads

variable {α : Type} {allowed : α → α → Prop} {old middle new : α} {early late : List α}

theorem refl (value : α) : Leads allowed value [] value := ⟨List.isChain_singleton value, rfl⟩

theorem single (h : allowed old new) : Leads allowed old [new] new :=
  ⟨List.isChain_pair.2 h, rfl⟩

theorem trans (hearly : Leads allowed old early middle) (hlate : Leads allowed middle late new) :
    Leads allowed old (early ++ late) new := by
  obtain ⟨init, hinit⟩ := List.getLast?_eq_some_iff.1 hearly.last
  have hchain := hearly.chain
  rw [hinit] at hchain
  constructor
  · rw [← List.cons_append, hinit, List.append_assoc, List.singleton_append]
    exact List.isChain_split.2 ⟨hchain, hlate.chain⟩
  · rw [← List.cons_append, hinit, List.append_assoc, List.singleton_append,
      List.getLast?_append, hlate.last]
    rfl

end Leads

@[simp] theorem Status.filterMap_bridge_news (old new : Status) :
    (Status.news old new).filterMap Event.bridge? = [] := by
  rw [Status.news]
  split <;> rfl

theorem BridgeStatus.leads_news (old new : BridgeStatus) :
    Leads (· ≠ ·) old ((BridgeStatus.news old new).filterMap Event.bridge?) new := by
  rw [BridgeStatus.news]
  split
  · rename_i heq
    rw [heq]
    exact .refl new
  · rename_i hne
    exact .single hne

namespace Desk

/-- From one desk to the other the log grew by the changes of the bridge status. -/
def TellsBridge (before after : Desk) : Prop :=
  ∃ events, after.log = before.log ++ events ∧
    Leads (· ≠ ·) before.bridge (events.filterMap Event.bridge?) after.bridge

variable {before middle after : Desk}

theorem TellsBridge.of_eq (hlog : after.log = before.log) (hbridge : after.bridge = before.bridge) :
    before.TellsBridge after := by
  refine ⟨[], ?_, ?_⟩
  · rw [hlog, List.append_nil]
  · rw [hbridge]
    exact .refl before.bridge

theorem TellsBridge.trans (hearly : before.TellsBridge middle) (hlate : middle.TellsBridge after) :
    before.TellsBridge after := by
  obtain ⟨first, hfirst, hleads⟩ := hearly
  obtain ⟨second, hsecond, hleads'⟩ := hlate
  refine ⟨first ++ second, ?_, ?_⟩
  · rw [hsecond, hfirst, List.append_assoc]
  · rw [List.filterMap_append]
    exact hleads.trans hleads'

theorem tellsBridge_enter (desk : Desk) (status : Status) :
    desk.TellsBridge (desk.enter status) := by
  rw [enter_eq]
  refine ⟨Status.news desk.status status, rfl, ?_⟩
  rw [Status.filterMap_bridge_news]
  exact .refl desk.bridge

theorem tellsBridge_setBridge (desk : Desk) (bridge : BridgeStatus) :
    desk.TellsBridge (desk.setBridge bridge) := by
  rw [setBridge_eq]
  exact ⟨_, rfl, BridgeStatus.leads_news desk.bridge bridge⟩

theorem tellsBridge_setBridgeIf (desk : Desk) (condition : Bool) (bridge : BridgeStatus) :
    desk.TellsBridge (desk.setBridgeIf condition bridge) := by
  cases condition with
  | false => exact .of_eq rfl rfl
  | true => exact desk.tellsBridge_setBridge bridge

theorem tellsBridge_notify (desk : Desk) (notice : Notice) :
    desk.TellsBridge (desk.notify notice) := ⟨[.notice notice], rfl, .refl desk.bridge⟩

theorem tellsBridge_taken (desk : Desk) : desk.TellsBridge desk.taken := by
  refine TellsBridge.trans ?_ (tellsBridge_setBridge _ _)
  exact .of_eq rfl rfl

theorem tellsBridge_unplanned (desk : Desk) (error : FlowError) :
    desk.TellsBridge (desk.unplanned error) := by
  refine TellsBridge.trans ?_ (tellsBridge_enter _ _)
  exact desk.tellsBridge_taken.trans (.of_eq rfl rfl)

theorem tellsBridge_beginExecution (desk : Desk) (plan : Plan) :
    desk.TellsBridge (desk.beginExecution plan) :=
  (desk.tellsBridge_enter .pending).trans (tellsBridge_setBridgeIf _ _ _)

theorem tellsBridge_reset (desk : Desk) (intent : Intent) :
    desk.TellsBridge (desk.reset intent) := by
  refine TellsBridge.trans ?_ (tellsBridge_setBridge _ _)
  refine TellsBridge.trans ?_ (tellsBridge_enter _ _)
  exact .of_eq rfl rfl

theorem tellsBridge_typeIf (desk : Desk) (amount : Option String) :
    desk.TellsBridge (desk.typeIf amount) := by
  cases amount with
  | none => exact .of_eq rfl rfl
  | some text =>
    rw [typeIf, typeAmount_eq]
    refine ⟨_, rfl, ?_⟩
    rw [Status.filterMap_bridge_news]
    exact .refl desk.bridge

theorem tellsBridge_failWith (desk : Desk) (error : FlowError) (bridged : Bool) :
    desk.TellsBridge (desk.failWith error bridged) := by
  refine TellsBridge.trans ?_ (tellsBridge_notify _ _)
  refine TellsBridge.trans ?_ (tellsBridge_setBridgeIf _ _ _)
  refine TellsBridge.trans ?_ (tellsBridge_enter _ _)
  exact .of_eq rfl rfl

theorem Settles.tellsBridge {hash : TxHash} {outcome : Except FlowError Bool} {settled : Settled}
    (h : Settles before hash outcome after settled) : before.TellsBridge after := by
  cases h with
  | known | strayed | lost => exact .of_eq rfl rfl
  | succeeded | failed =>
    refine TellsBridge.trans ?_ (tellsBridge_notify _ _)
    refine TellsBridge.trans ?_ (tellsBridge_setBridgeIf _ _ _)
    refine TellsBridge.trans ?_ (tellsBridge_enter _ _)
    exact .of_eq rfl rfl

end Desk

end DonationFlow
