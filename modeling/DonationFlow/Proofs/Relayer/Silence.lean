import DonationFlow.Proofs.Relayer.Waiting

/-!
# What a receipt is taken to say

A receipt that states a status says by it whether its transaction succeeded.  One
that leaves the status out, or has `null` or no number in its place, says nothing,
and a wait for a stated status would pass it over.  It is taken for a failure
instead.  Main statement: `settled_as_stated_unless_silent`, by which a wait that
meets no such receipt first answers as the first stated status says.
-/

namespace DonationFlow

namespace Rpc

/-- What stands for the status in a receipt, which is a record or its one field. -/
def receiptStatus? : Json → Option Json
  | .obj entries => some (((Json.obj entries).lookUp? "status").getD .null)
  | .arr [status] => some status
  | _ => none

/-- The status that a receipt states. -/
def statedStatus? (receipt : Json) : Option Word :=
  ((receiptStatus? receipt).bind Json.text?).bind Text.quantity?

/-- The receipt states no status: there is none, or `null`, or a text that is no
number. -/
def Silent (receipt : Json) : Prop :=
  receiptStatus? receipt = some .null ∨
    ∃ text, receiptStatus? receipt = some (.str text) ∧ Text.quantity? text = none

section Receipts

variable {receipt : Json} {status : Word} {confirmed : Bool}

theorem statedStatus?_eq_some_iff : statedStatus? receipt = some status ↔
    ∃ text, receiptStatus? receipt = some (.str text) ∧ Text.quantity? text = some status := by
  have htext : ∀ {field : Json} {text : String}, field.text? = some text ↔ field = .str text := by
    intro field text
    cases field <;> simp [Json.text?]
  simp only [statedStatus?, Option.bind_eq_some_iff, htext, exists_eq_right]

theorem Silent.statedStatus?_eq_none (h : Silent receipt) : statedStatus? receipt = none := by
  rcases h with hnull | ⟨text, htext, hnone⟩
  · rw [statedStatus?, hnull]
    rfl
  · rw [statedStatus?, htext]
    exact hnone

/-- Only a record, or its one field, is read as a receipt. -/
theorem statusConfirms_eq_ok_iff {field : Json} : statusConfirms field = .ok confirmed ↔
    field = .null ∧ confirmed = false ∨
      ∃ text, field = .str text ∧ confirmed = decide (Text.quantity? text = Word.ofNat? 1) := by
  cases field <;> simp [statusConfirms, eq_comm]

/-- Only what has a place for a status is read as a receipt. -/
theorem receiptOf_eq_ok_some_iff_field : receiptOf receipt = .ok (some confirmed) ↔
    ∃ field, receiptStatus? receipt = some field ∧ statusConfirms field = .ok confirmed := by
  have hsome : ∀ outcome : Except FlowError Bool,
      some <$> outcome = .ok (some confirmed) ↔ outcome = .ok confirmed := by
    intro outcome
    cases outcome <;> simp [Functor.map, Except.map]
  unfold receiptOf receiptStatus?
  split
  · simp
  · simp [hsome]
  · simp [hsome]
  · split <;> simp_all

theorem some_eq_ofNat?_one_iff : some status = Word.ofNat? 1 ↔ status.toNat = 1 :=
  eq_comm.trans Word.ofNat?_eq_some_iff

/-- A receipt is read as confirming exactly if the status it states is one. -/
theorem receiptOf_eq_ok_some_iff : receiptOf receipt = .ok (some confirmed) ↔
    (∃ status, statedStatus? receipt = some status ∧ confirmed = decide (status.toNat = 1)) ∨
      Silent receipt ∧ confirmed = false := by
  simp only [receiptOf_eq_ok_some_iff_field, statusConfirms_eq_ok_iff, statedStatus?_eq_some_iff]
  constructor
  · rintro ⟨_, hfield, ⟨rfl, rfl⟩ | ⟨text, rfl, rfl⟩⟩
    · exact Or.inr ⟨Or.inl hfield, rfl⟩
    · cases hquantity : Text.quantity? text with
      | none => exact Or.inr ⟨Or.inr ⟨text, hfield, hquantity⟩, rfl⟩
      | some status =>
        exact Or.inl ⟨status, ⟨text, hfield, hquantity⟩, decide_eq_decide.2 some_eq_ofNat?_one_iff⟩
  · rintro (⟨status, ⟨text, hfield, hquantity⟩, rfl⟩ | ⟨hnull | ⟨text, hfield, hquantity⟩, rfl⟩)
    · refine ⟨_, hfield, Or.inr ⟨text, rfl, ?_⟩⟩
      rw [hquantity]
      exact (decide_eq_decide.2 some_eq_ofNat?_one_iff).symm
    · exact ⟨_, hnull, Or.inl ⟨rfl, rfl⟩⟩
    · refine ⟨_, hfield, Or.inr ⟨text, rfl, ?_⟩⟩
      rw [hquantity]
      rfl

end Receipts

end Rpc

namespace Relayer

open Http (Line)
open Rpc (Silent statedStatus? receiptOf_eq_ok_some_iff)

section Saying

variable (relayer : Relayer) (chainId : Nat) (hash : TxHash) (line : Line) (count : Nat)

/-- What the node answers at the lookup after so many others. -/
def answer : Except FlowError Json :=
  (relayer.node.request chainId "eth_getTransactionReceipt" (.arr [hash.toJson])
    (relayer.lineBefore chainId hash line count)).2

/-- The status that is stated by the receipt which the lookup after so many others
meets. -/
def stated? : Option Word :=
  (relayer.answer chainId hash line count).toOption.bind statedStatus?

/-- The lookup after so many others meets a receipt with a stated status, which
confirms the transaction exactly if it is one. -/
def Says (confirmed : Bool) : Prop :=
  ∃ status, relayer.stated? chainId hash line count = some status ∧
    confirmed = decide (status.toNat = 1)

/-- The lookup after so many others meets a receipt that states no status. -/
def MeetsSilence : Prop :=
  ∃ receipt, relayer.answer chainId hash line count = .ok receipt ∧ Silent receipt

/-- The first receipt that is met before the wait is over states no status. -/
def EndsInSilence : Prop :=
  ∃ count, (∀ before < count,
      relayer.InVain chainId hash line (relayer.Finds chainId hash line) before) ∧
    relayer.MeetsSilence chainId hash line count

end Saying

variable {relayer : Relayer} {chainId : Nat} {hash : TxHash} {line : Line} {count : Nat}
  {confirmed : Bool} {finds : Nat → Bool → Prop}

/-- A lookup finds what a stated status says, and that silence is a failure. -/
theorem finds_iff : relayer.Finds chainId hash line count confirmed ↔
    relayer.Says chainId hash line count confirmed ∨
      relayer.MeetsSilence chainId hash line count ∧ confirmed = false := by
  have hlookup : (relayer.lookup chainId hash line count).2 =
      (relayer.answer chainId hash line count).bind Rpc.receiptOf := rfl
  rw [Finds, hlookup, Says, stated?, MeetsSilence]
  cases relayer.answer chainId hash line count with
  | error error => simp [Except.bind, Except.toOption]
  | ok receipt =>
    rw [Except.bind, receiptOf_eq_ok_some_iff]
    simp only [Except.toOption, Option.bind_some, Except.ok.injEq, exists_eq_left']

theorem Says.not_meetsSilence (h : relayer.Says chainId hash line count confirmed) :
    ¬relayer.MeetsSilence chainId hash line count := by
  rintro ⟨receipt, hanswer, hsilent⟩
  obtain ⟨status, hstated, -⟩ := h
  rw [stated?, hanswer] at hstated
  have hnone : some status = none := hstated.symm.trans hsilent.statedStatus?_eq_none
  cases hnone

theorem finds_of_meetsSilence (h : relayer.MeetsSilence chainId hash line count) :
    relayer.Finds chainId hash line count confirmed ↔ confirmed = false := by
  rw [finds_iff]
  exact ⟨fun hfinds => hfinds.elim (fun hsays => absurd h hsays.not_meetsSilence) And.right,
    fun hfalse => Or.inr ⟨h, hfalse⟩⟩

/-- What is in vain for a wait for receipts is so for a wait for stated statuses. -/
theorem InVain.of_finds
    (h : relayer.InVain chainId hash line (relayer.Finds chainId hash line) count) :
    relayer.InVain chainId hash line (relayer.Says chainId hash line) count :=
  ⟨fun confirmed hsays => h.notFound confirmed (finds_iff.2 (Or.inl hsays)), h.early⟩

/-- The wait for receipts ends as one for stated statuses, unless its last lookup
meets silence. -/
theorem Ends.of_finds {result : Line × Except FlowError Bool}
    (h : relayer.Ends chainId hash line (relayer.Finds chainId hash line) count result)
    (hheard : ¬relayer.MeetsSilence chainId hash line count) :
    relayer.Ends chainId hash line (relayer.Says chainId hash line) count result := by
  have hvain : ∀ before < count,
      relayer.InVain chainId hash line (relayer.Says chainId hash line) before :=
    fun before hbefore => (h.in_vain before hbefore).of_finds
  cases h with
  | found _ hfinds =>
    rcases finds_iff.1 hfinds with hsays | ⟨hsilence, -⟩
    · exact .found hvain hsays
    · exact absurd hsilence hheard
  | late _ hnone hlate =>
    exact .late hvain (fun confirmed hsays => hnone confirmed (finds_iff.2 (Or.inl hsays))) hlate

/-- At a silent receipt the wait for receipts ends, with a failure. -/
theorem Ends.snd_of_meetsSilence {result : Line × Except FlowError Bool}
    (h : relayer.Ends chainId hash line (relayer.Finds chainId hash line) count result)
    (hsilence : relayer.MeetsSilence chainId hash line count) : result.2 = .ok false := by
  cases h with
  | found _ hfinds => rw [(finds_of_meetsSilence hsilence).1 hfinds]
  | late _ hnone => exact absurd ((finds_of_meetsSilence hsilence).2 rfl) (hnone false)

/-- The wait for stated statuses does not end there with an answer. -/
theorem Ends.snd_ne_of_meetsSilence {result : Line × Except FlowError Bool}
    (h : relayer.Ends chainId hash line (relayer.Says chainId hash line) count result)
    (hsilence : relayer.MeetsSilence chainId hash line count) : result.2 ≠ .ok confirmed := by
  cases h with
  | found _ hsays => exact absurd hsilence hsays.not_meetsSilence
  | late => exact fun hok => nomatch hok

/-- Only a node that has an address answers. -/
theorem MeetsSilence.url_ne_none (h : relayer.MeetsSilence chainId hash line count) :
    relayer.node.urls.get? chainId ≠ none := by
  intro hurl
  obtain ⟨receipt, hanswer, -⟩ := h
  rw [answer, relayer.node.request_of_no_url hurl] at hanswer
  cases hanswer

/-- From a silent receipt on, no wait for stated statuses would end as the wait does. -/
theorem Ends.not_ends_says {result : Line × Except FlowError Bool}
    (h : relayer.Ends chainId hash line (relayer.Finds chainId hash line) count result)
    (hsilence : relayer.MeetsSilence chainId hash line count) (other : Nat) :
    ¬relayer.Ends chainId hash line (relayer.Says chainId hash line) other result := by
  intro hpatient
  -- The posts tell the lookups apart, also where no time passes between them.
  have hlookup : (relayer.lookup chainId hash line other).1.posted.length =
      (relayer.lookup chainId hash line count).1.posted.length := by
    rw [← hpatient.fst_eq, h.fst_eq]
  obtain rfl := (strictMono_posted relayer chainId hash line hsilence.url_ne_none).injective hlookup
  exact hpatient.snd_ne_of_meetsSilence hsilence (h.snd_of_meetsSilence hsilence)

/-- A wait answers what the first receipt it meets says, and that the transaction failed
if that receipt is silent.  A wait for stated statuses would pass a silent one over until
there is a status or the deadline has passed, so the two end differently there; where
the first receipt is not silent, the wait ends as that one does. -/
theorem settled_as_stated_unless_silent (relayer : Relayer) (chainId : Nat) (hash : TxHash)
    (line : Line) :
    (∀ confirmed, (relayer.awaitReceipt chainId hash line).2 = .ok confirmed ↔
      ∃ count, (∀ before < count,
          relayer.InVain chainId hash line (relayer.Finds chainId hash line) before) ∧
        (relayer.Says chainId hash line count confirmed ∨
          relayer.MeetsSilence chainId hash line count ∧ confirmed = false)) ∧
    (relayer.EndsInSilence chainId hash line →
      ∀ count, ¬relayer.Ends chainId hash line (relayer.Says chainId hash line) count
        (relayer.awaitReceipt chainId hash line)) ∧
    (1 ≤ relayer.poll → ¬relayer.EndsInSilence chainId hash line →
      ∃ count, relayer.Ends chainId hash line (relayer.Says chainId hash line) count
        (relayer.awaitReceipt chainId hash line)) := by
  refine ⟨fun confirmed => ?_, ?_, fun hpoll hheard => ?_⟩
  · simp only [awaitReceipt_eq_ok_iff, finds_iff]
  · rintro ⟨first, hvain, hsilence⟩
    have hends := Ends.found hvain ((finds_of_meetsSilence hsilence).2 rfl)
    rw [awaitReceipt_eq_of_ends hends]
    exact hends.not_ends_says hsilence
  · obtain ⟨last, result, hends⟩ :=
      exists_ends hpoll chainId hash line (relayer.Finds chainId hash line)
    rw [awaitReceipt_eq_of_ends hends]
    exact ⟨last, hends.of_finds fun hsilence => hheard ⟨last, hends.in_vain, hsilence⟩⟩

/-- The node does not know of the transaction yet, and then states that it failed. -/
def failedLine : Line :=
  { replies :=
      [.answered 200 "\x7b\"result\":null\x7d",
       .answered 200 "\x7b\"result\":\x7b\"status\":\"0x0\"\x7d\x7d"] }

/-- The failure that is answered is the one that is stated. -/
theorem settled_as_stated_unless_silent_of_failedLine :
    let relayer := singleRelayer 1500 600000
    1 ≤ relayer.poll ∧ ¬relayer.EndsInSilence 1 awaitedHash failedLine ∧
      (∃ count, relayer.Ends 1 awaitedHash failedLine (relayer.Says 1 awaitedHash failedLine) count
        (relayer.awaitReceipt 1 awaitedHash failedLine)) ∧
      (relayer.awaitReceipt 1 awaitedHash failedLine).2 = .ok false := by
  intro relayer
  have hpoll : 1 ≤ relayer.poll := by decide
  have hfirst : (relayer.lookup 1 awaitedHash failedLine 0).2 = .ok none := by decide +kernel
  have hvain : ∀ before < 1,
      relayer.InVain 1 awaitedHash failedLine (relayer.Finds 1 awaitedHash failedLine) before := by
    intro before hbefore
    obtain rfl : before = 0 := by omega
    refine ⟨fun confirmed hfinds => ?_, by decide +kernel⟩
    rw [Finds, hfirst] at hfinds
    cases hfinds
  have hfinds : relayer.Finds 1 awaitedHash failedLine 1 false := by
    rw [Finds]
    decide +kernel
  have hsays : relayer.Says 1 awaitedHash failedLine 1 false :=
    ⟨Word.zero, by decide +kernel, by decide⟩
  have hheard : ¬relayer.EndsInSilence 1 awaitedHash failedLine := by
    rintro ⟨first, hbefore, hsilence⟩
    have hfirst : ¬relayer.InVain 1 awaitedHash failedLine (relayer.Finds 1 awaitedHash failedLine)
        first := fun hother => hother.notFound false ((finds_of_meetsSilence hsilence).2 rfl)
    obtain rfl := (Ends.found hvain hfinds).eq_of_first hbefore hfirst
    exact hsays.not_meetsSilence hsilence
  obtain ⟨hanswers, -, hpatient⟩ :=
    settled_as_stated_unless_silent relayer 1 awaitedHash failedLine
  exact ⟨hpoll, hheard, hpatient hpoll hheard,
    (hanswers false).2 ⟨1, hvain, Or.inl hsays⟩⟩

/-- The node has a receipt whose status is still open, and then one that states
success. -/
def silentLine : Line :=
  { replies :=
      [.answered 200 "\x7b\"result\":\x7b\"status\":null\x7d\x7d",
       .answered 200 "\x7b\"result\":\x7b\"status\":\"0x1\"\x7d\x7d"] }

/-- The open status is answered as a failure, although the next lookup, long before
the deadline, would have met the stated success. -/
theorem failure_answered_in_silentLine :
    let relayer := singleRelayer 1500 600000
    (relayer.awaitReceipt 1 awaitedHash silentLine).2 = .ok false ∧
      relayer.MeetsSilence 1 awaitedHash silentLine 0 ∧
      relayer.Says 1 awaitedHash silentLine 1 true ∧
      (relayer.lookup 1 awaitedHash silentLine 1).1.clock = 1500 ∧
      ∀ count, ¬relayer.Ends 1 awaitedHash silentLine (relayer.Says 1 awaitedHash silentLine) count
        (relayer.awaitReceipt 1 awaitedHash silentLine) := by
  intro relayer
  have hfinds : relayer.Finds 1 awaitedHash silentLine 0 false := by
    rw [Finds]
    decide +kernel
  have hunstated : relayer.stated? 1 awaitedHash silentLine 0 = none := by decide +kernel
  have hsilence : relayer.MeetsSilence 1 awaitedHash silentLine 0 := by
    rcases finds_iff.1 hfinds with ⟨status, hstated, -⟩ | ⟨hsilence, -⟩
    · rw [hunstated] at hstated
      cases hstated
    · exact hsilence
  have hsays : relayer.Says 1 awaitedHash silentLine 1 true :=
    ⟨⟨1, by decide⟩, by decide +kernel, by decide⟩
  have hends : relayer.Ends 1 awaitedHash silentLine (relayer.Finds 1 awaitedHash silentLine) 0 _ :=
    .found (fun before hbefore => absurd hbefore (Nat.not_lt_zero before)) hfinds
  rw [awaitReceipt_eq_of_ends hends]
  exact ⟨rfl, hsilence, hsays, by decide +kernel, hends.not_ends_says hsilence⟩

end Relayer

end DonationFlow
