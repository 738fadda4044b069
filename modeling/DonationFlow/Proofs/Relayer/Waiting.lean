import DonationFlow.Proofs.Rpc.Retries
import DonationFlow.Relayer
import Mathlib.Order.Monotone.Basic

/-!
# How long a receipt is waited for

A wait looks the receipt up again and again, with a pause behind each lookup in
vain.  A lookup is in vain if it finds nothing and ends before the deadline; the
first that is not is the last one.  Since each lookup in vain takes the clock on by
its pause at least, there is such a one.  Main statement: `waits_for_first_receipt`.
-/

namespace DonationFlow

namespace Relayer

open Http (Line)

variable (relayer : Relayer) (chainId : Nat) (hash : TxHash)

/-- The line before the lookup that comes after so many others, if the wait goes on
for so long. -/
def lineBefore (line : Line) : Nat → Line
  | 0 => line
  | count + 1 =>
    (relayer.node.receipt chainId hash (lineBefore line count)).1.sleep relayer.poll

/-- The lookup after so many others: the line behind it, and what came of it. -/
def lookup (line : Line) (count : Nat) : Line × Except FlowError (Option Bool) :=
  relayer.node.receipt chainId hash (relayer.lineBefore chainId hash line count)

/-- What a lookup posts: a request to the node of the chain for the receipt of the hash. -/
def receiptPost : Http.Post :=
  relayer.node.postOf chainId "eth_getTransactionReceipt" (.arr [hash.toJson])

/-- The lookup after so many others finds a receipt that says this. -/
def Finds (line : Line) (count : Nat) (confirmed : Bool) : Prop :=
  (relayer.lookup chainId hash line count).2 = .ok (some confirmed)

/-- From the lookup after so many others on, each ends later than the one before it by
so much at least. -/
def Apart (line : Line) (first gap : Nat) : Prop :=
  ∀ count ≥ first, (relayer.lookup chainId hash line count).1.clock + gap ≤
    (relayer.lookup chainId hash line (count + 1)).1.clock

section Ending

variable (line : Line) (finds : Nat → Bool → Prop) (count : Nat)

/-- The lookup after so many others finds nothing, and ends before the deadline. -/
structure InVain : Prop where
  notFound : ∀ confirmed, ¬finds count confirmed
  early : (relayer.lookup chainId hash line count).1.clock < line.clock + relayer.timeout

/-- A wait in which the lookups find these things ends with the one after so many
others, in this way. -/
inductive Ends : Line × Except FlowError Bool → Prop
  | found {confirmed : Bool}
      (hvain : ∀ before < count, relayer.InVain chainId hash line finds before)
      (hfinds : finds count confirmed) :
      Ends ((relayer.lookup chainId hash line count).1, .ok confirmed)
  | late (hvain : ∀ before < count, relayer.InVain chainId hash line finds before)
      (hnone : ∀ confirmed, ¬finds count confirmed)
      (hlate : line.clock + relayer.timeout ≤ (relayer.lookup chainId hash line count).1.clock) :
      Ends ((relayer.lookup chainId hash line count).1, .error (.notMined hash.text))

end Ending

variable {relayer chainId hash} {line : Line} {finds : Nat → Bool → Prop} {count : Nat}

/-! ## One lookup and the next -/

section Lookup

variable (relayer chainId hash line count)

/-- A lookup is one request for the receipt, so five posts at most, and one at least
unless the chain has no address. -/
theorem exists_tried_of_lookup : ∃ tries ≤ 5,
    (tries = 0 ↔ relayer.node.urls.get? chainId = none) ∧
      (relayer.lookup chainId hash line count).1 =
        (relayer.lineBefore chainId hash line count).tried
          (relayer.receiptPost chainId hash) tries :=
  relayer.node.exists_tried_of_request chainId "eth_getTransactionReceipt" _ _

theorem clock_lineBefore_le : (relayer.lineBefore chainId hash line count).clock ≤
    (relayer.lookup chainId hash line count).1.clock := by
  obtain ⟨tries, -, -, htried⟩ := exists_tried_of_lookup relayer chainId hash line count
  rw [htried]
  exact Nat.le_add_right _ _

theorem clock_lineBefore_succ : (relayer.lineBefore chainId hash line (count + 1)).clock =
    (relayer.lookup chainId hash line count).1.clock + relayer.poll := rfl

theorem idle_lineBefore : (relayer.lineBefore chainId hash line count).idle = line.idle := by
  induction count with
  | zero => rfl
  | succ count ih =>
    obtain ⟨tries, -, -, htried⟩ := exists_tried_of_lookup relayer chainId hash line count
    have hlookup : (relayer.lookup chainId hash line count).1.idle =
        (relayer.lineBefore chainId hash line count).idle := by
      rw [htried, Line.tried]
    exact hlookup.trans ih

/-- On a chain with an address each lookup takes a reply away, if there is one. -/
theorem length_replies_lineBefore_le (hurl : relayer.node.urls.get? chainId ≠ none) :
    (relayer.lineBefore chainId hash line count).replies.length ≤
      line.replies.length - count := by
  induction count with
  | zero => simp [lineBefore]
  | succ count ih =>
    obtain ⟨tries, -, hzero, htried⟩ := exists_tried_of_lookup relayer chainId hash line count
    have hlookup : (relayer.lookup chainId hash line count).1.replies =
        (relayer.lineBefore chainId hash line count).replies.drop tries := by
      rw [htried, Line.tried]
    have hlength : (relayer.lineBefore chainId hash line (count + 1)).replies.length =
        (relayer.lineBefore chainId hash line count).replies.length - tries := by
      rw [← List.length_drop, ← hlookup]
      rfl
    have hpos := mt hzero.1 hurl
    omega

/-- Each lookup there adds to the posts. -/
theorem strictMono_posted (hurl : relayer.node.urls.get? chainId ≠ none) :
    StrictMono fun count => (relayer.lookup chainId hash line count).1.posted.length := by
  refine strictMono_nat_of_lt_succ fun count => ?_
  obtain ⟨tries, -, hzero, htried⟩ :=
    exists_tried_of_lookup relayer chainId hash line (count + 1)
  have hbefore : (relayer.lineBefore chainId hash line (count + 1)).posted =
    (relayer.lookup chainId hash line count).1.posted := rfl
  rw [htried, Line.tried, List.length_append, List.length_replicate, hbefore]
  have hpos := mt hzero.1 hurl
  omega

/-- Once the replies are used up, either all lookups are alike, and end as soon as
they begin, or each takes thirty seconds. -/
theorem lookup_of_spent :
    (∃ outcome, ∀ count ≥ line.replies.length,
      (relayer.lookup chainId hash line count).2 = outcome ∧
        (relayer.lookup chainId hash line count).1.clock =
          (relayer.lineBefore chainId hash line count).clock) ∨
    ∀ count ≥ line.replies.length,
      (relayer.lookup chainId hash line count).1.clock =
        (relayer.lineBefore chainId hash line count).clock + 30000 := by
  have hidle := idle_lineBefore relayer chainId hash line
  have hspent : ∀ count ≥ line.replies.length, relayer.node.urls.get? chainId ≠ none →
      (relayer.lineBefore chainId hash line count).replies = [] := by
    intro count hcount hurl
    have hlength := length_replies_lineBefore_le relayer chainId hash line count hurl
    exact List.eq_nil_of_length_eq_zero (by omega)
  obtain ⟨outcome, halike⟩ | hslow := relayer.node.request_of_spent chainId
    "eth_getTransactionReceipt" (.arr [hash.toJson]) line.idle
  · refine Or.inl ⟨outcome.bind Rpc.receiptOf, fun count hcount => ?_⟩
    obtain ⟨houtcome, hclock⟩ := halike _ (hidle count) (hspent count hcount)
    exact ⟨congrArg (Except.bind · Rpc.receiptOf) houtcome, hclock⟩
  · exact Or.inr fun count hcount => hslow _ (hidle count) (hspent count hcount)

end Lookup

/-! ## The clock -/

theorem apart_poll (relayer : Relayer) (chainId : Nat) (hash : TxHash) (line : Line) :
    relayer.Apart chainId hash line 0 relayer.poll := by
  intro count _
  rw [← clock_lineBefore_succ]
  exact clock_lineBefore_le relayer chainId hash line (count + 1)

/-- From one lookup to a later one the clock goes on by the gaps between them. -/
theorem Apart.add_mul_le {first gap : Nat} (h : relayer.Apart chainId hash line first gap)
    (further : Nat) :
    (relayer.lookup chainId hash line first).1.clock + further * gap ≤
      (relayer.lookup chainId hash line (first + further)).1.clock := by
  induction further with
  | zero => simp
  | succ further ih =>
    have hnext := h (first + further) (Nat.le_add_right _ _)
    rw [Nat.succ_mul, ← Nat.add_assoc first]
    omega

/-- No lookup ends before the wait begins. -/
theorem clock_le_clock_lookup (relayer : Relayer) (chainId : Nat) (hash : TxHash) (line : Line)
    (count : Nat) : line.clock ≤ (relayer.lookup chainId hash line count).1.clock :=
  calc
    line.clock ≤ (relayer.lookup chainId hash line 0).1.clock :=
      clock_lineBefore_le relayer chainId hash line 0
    _ ≤ (relayer.lookup chainId hash line 0).1.clock + count * relayer.poll :=
      Nat.le_add_right _ _
    _ ≤ (relayer.lookup chainId hash line (0 + count)).1.clock :=
      (apart_poll relayer chainId hash line).add_mul_le count
    _ = (relayer.lookup chainId hash line count).1.clock := by rw [Nat.zero_add]

/-- What has not brought the clock to the deadline leaves room for one more gap. -/
theorem InVain.mul_lt {first gap further : Nat}
    (h : relayer.InVain chainId hash line finds (first + further))
    (hapart : relayer.Apart chainId hash line first gap) : further * gap < relayer.timeout := by
  have hsum : line.clock + further * gap < line.clock + relayer.timeout :=
    calc
      line.clock + further * gap
          ≤ (relayer.lookup chainId hash line first).1.clock + further * gap :=
        Nat.add_le_add_right (clock_le_clock_lookup relayer chainId hash line first) _
      _ ≤ (relayer.lookup chainId hash line (first + further)).1.clock :=
        hapart.add_mul_le further
      _ < line.clock + relayer.timeout := h.early
  exact Nat.lt_of_add_lt_add_left hsum

theorem InVain.mul_poll_lt (h : relayer.InVain chainId hash line finds count) :
    count * relayer.poll < relayer.timeout := by
  rw [← Nat.zero_add count] at h
  exact h.mul_lt (apart_poll relayer chainId hash line)

/-- There are no more lookups in vain than pauses before the deadline. -/
theorem le_of_in_vain (hpoll : 1 ≤ relayer.poll)
    (h : ∀ before < count, relayer.InVain chainId hash line finds before) :
    count ≤ (relayer.timeout + relayer.poll - 1) / relayer.poll := by
  rw [Nat.le_div_iff_mul_le hpoll]
  cases count with
  | zero => simp
  | succ count =>
    have hlast := (h count (Nat.lt_succ_self count)).mul_poll_lt
    rw [Nat.succ_mul]
    omega

theorem exists_not_in_vain (hpoll : 1 ≤ relayer.poll) (chainId : Nat) (hash : TxHash)
    (line : Line) (finds : Nat → Bool → Prop) :
    ∃ count, ¬relayer.InVain chainId hash line finds count := by
  refine ⟨relayer.timeout, fun hvain => Nat.lt_irrefl relayer.timeout ?_⟩
  calc
    relayer.timeout ≤ relayer.timeout * relayer.poll := Nat.le_mul_of_pos_right _ hpoll
    _ < relayer.timeout := hvain.mul_poll_lt

/-! ## The end of a wait -/

/-- If a lookup is not in vain, a wait ends, with the first such. -/
theorem exists_ends_of_not_in_vain
    (h : ∃ count, ¬relayer.InVain chainId hash line finds count) :
    ∃ count result, relayer.Ends chainId hash line finds count result := by
  classical
  have hlast := Nat.find_spec h
  have hvain : ∀ before < Nat.find h, relayer.InVain chainId hash line finds before :=
    fun before hbefore => not_not.1 (Nat.find_min h hbefore)
  refine ⟨Nat.find h, ?_⟩
  by_cases hfound : ∃ confirmed, finds (Nat.find h) confirmed
  · obtain ⟨confirmed, hfinds⟩ := hfound
    exact ⟨_, .found hvain hfinds⟩
  · exact ⟨_, .late hvain (not_exists.1 hfound) (Nat.not_lt.1 fun hearly =>
      hlast ⟨not_exists.1 hfound, hearly⟩)⟩

/-- Some wait ends, whatever its lookups find. -/
theorem exists_ends (hpoll : 1 ≤ relayer.poll) (chainId : Nat) (hash : TxHash) (line : Line)
    (finds : Nat → Bool → Prop) :
    ∃ count result, relayer.Ends chainId hash line finds count result :=
  exists_ends_of_not_in_vain (exists_not_in_vain hpoll chainId hash line finds)

theorem Ends.in_vain {result : Line × Except FlowError Bool}
    (h : relayer.Ends chainId hash line finds count result) :
    ∀ before < count, relayer.InVain chainId hash line finds before := by
  cases h with
  | found hvain | late hvain => exact hvain

theorem Ends.fst_eq {result : Line × Except FlowError Bool}
    (h : relayer.Ends chainId hash line finds count result) :
    result.1 = (relayer.lookup chainId hash line count).1 := by
  cases h with
  | found | late => rfl

theorem Ends.not_in_vain {result : Line × Except FlowError Bool}
    (h : relayer.Ends chainId hash line finds count result) :
    ¬relayer.InVain chainId hash line finds count := by
  intro hvain
  cases h with
  | found _ hfinds => exact hvain.notFound _ hfinds
  | late _ _ hlate => exact Nat.not_lt.2 hlate hvain.early

/-- The first lookup that is not in vain is the only one. -/
theorem Ends.eq_of_first {result : Line × Except FlowError Bool} {first : Nat}
    (h : relayer.Ends chainId hash line finds count result)
    (hvain : ∀ before < first, relayer.InVain chainId hash line finds before)
    (hfirst : ¬relayer.InVain chainId hash line finds first) : first = count := by
  rcases Nat.lt_trichotomy first count with hlt | heq | hlt
  · exact absurd (h.in_vain first hlt) hfirst
  · exact heq
  · exact absurd (hvain count hlt) h.not_in_vain

/-! ## The loop -/

section Lookups

variable {deadline : Nat} {confirmed : Bool}

theorem lookups_of_finds (h : relayer.Finds chainId hash line count confirmed) (fuel : Nat) :
    relayer.lookups chainId hash deadline (fuel + 1) (relayer.lineBefore chainId hash line count) =
      ((relayer.lookup chainId hash line count).1, .ok confirmed) := by
  have hlookup : relayer.node.receipt chainId hash (relayer.lineBefore chainId hash line count) =
      ((relayer.lookup chainId hash line count).1, .ok (some confirmed)) := Prod.ext rfl h
  rw [lookups, hlookup]

/-- Without a receipt the deadline decides, at the end of the lookup. -/
theorem lookups_of_not_finds
    (h : ∀ confirmed, ¬relayer.Finds chainId hash line count confirmed) (fuel : Nat) :
    relayer.lookups chainId hash deadline (fuel + 1) (relayer.lineBefore chainId hash line count) =
      if deadline ≤ (relayer.lookup chainId hash line count).1.clock then
        ((relayer.lookup chainId hash line count).1, .error (.notMined hash.text))
      else relayer.lookups chainId hash deadline fuel
        (relayer.lineBefore chainId hash line (count + 1)) := by
  rw [lookups]
  split
  · rename_i after confirmed hlookup
    exact absurd (congrArg Prod.snd hlookup) (h confirmed)
  · rename_i after outcome _ hlookup
    obtain rfl : (relayer.lookup chainId hash line count).1 = after := congrArg Prod.fst hlookup
    rfl

/-- Lookups in vain are followed by those that are left. -/
theorem lookups_of_in_vain {fuel : Nat} (hfuel : count ≤ fuel)
    (h : ∀ before < count,
      relayer.InVain chainId hash line (relayer.Finds chainId hash line) before) :
    relayer.lookups chainId hash (line.clock + relayer.timeout) fuel line =
      relayer.lookups chainId hash (line.clock + relayer.timeout) (fuel - count)
        (relayer.lineBefore chainId hash line count) := by
  induction count with
  | zero => rfl
  | succ count ih =>
    have hlast := h count (Nat.lt_succ_self count)
    have hspare : fuel - count = fuel - (count + 1) + 1 := by omega
    rw [ih (by omega) fun before hbefore => h before (by omega), hspare,
      lookups_of_not_finds hlast.notFound, if_neg (Nat.not_le.2 hlast.early)]

/-- The fuel outlasts the lookups in vain. -/
theorem lt_lookupFuel (hpoll : 1 ≤ relayer.poll)
    (h : count ≤ (relayer.timeout + relayer.poll - 1) / relayer.poll) (line : Line) :
    count < relayer.lookupFuel line := by
  have hpauses : count ≤ relayer.timeout / relayer.poll + 1 :=
    calc
      count ≤ (relayer.timeout + relayer.poll - 1) / relayer.poll := h
      _ ≤ (relayer.timeout + relayer.poll) / relayer.poll := Nat.div_le_div_right (Nat.sub_le _ _)
      _ = relayer.timeout / relayer.poll + 1 := Nat.add_div_right relayer.timeout hpoll
  rw [lookupFuel, Nat.max_eq_right hpoll]
  omega

/-- Without pauses, lookups that are alike stay in vain. -/
theorem InVain.of_alike {first : Nat} {outcome : Except FlowError (Option Bool)}
    (h : relayer.InVain chainId hash line (relayer.Finds chainId hash line) first)
    (hpoll : relayer.poll = 0)
    (halike : ∀ count ≥ first, (relayer.lookup chainId hash line count).2 = outcome ∧
      (relayer.lookup chainId hash line count).1.clock =
        (relayer.lineBefore chainId hash line count).clock)
    (hcount : first ≤ count) :
    relayer.InVain chainId hash line (relayer.Finds chainId hash line) count := by
  induction count, hcount using Nat.le_induction with
  | base => exact h
  | succ count hcount ih =>
    obtain ⟨houtcome, -⟩ := halike count hcount
    obtain ⟨hnext, hclock⟩ := halike (count + 1) (Nat.le_succ_of_le hcount)
    refine ⟨fun confirmed hfinds => ih.notFound confirmed ?_, ?_⟩
    · rw [Finds, houtcome, ← hnext]
      exact hfinds
    · rw [hclock, clock_lineBefore_succ, hpoll, Nat.add_zero]
      exact ih.early

/-- Without pauses the fuel does so, too, up to the first lookup that is not in vain. -/
theorem lt_lookupFuel_of_no_pause (hpoll : relayer.poll = 0)
    (h : ∀ before < count,
      relayer.InVain chainId hash line (relayer.Finds chainId hash line) before)
    (hlast : ¬relayer.InVain chainId hash line (relayer.Finds chainId hash line) count) :
    count < relayer.lookupFuel line := by
  have hfuel : relayer.lookupFuel line = relayer.timeout + line.replies.length + 2 := by
    rw [lookupFuel, hpoll, Nat.max_eq_left (Nat.zero_le 1), Nat.div_one]
  rw [hfuel]
  by_contra hlong
  obtain ⟨outcome, halike⟩ | hslow := lookup_of_spent relayer chainId hash line
  -- Lookups that are alike would all be in vain, as the first of them is.
  · exact hlast ((h line.replies.length (by omega)).of_alike hpoll halike (by omega))
  · have hapart : relayer.Apart chainId hash line line.replies.length 30000 := by
      intro before hbefore
      have hnext := hslow (before + 1) (Nat.le_succ_of_le hbefore)
      rw [clock_lineBefore_succ] at hnext
      omega
    have hlt := (h (line.replies.length + relayer.timeout) (by omega)).mul_lt hapart
    omega

/-- The first lookup that is not in vain comes before the fuel is used up. -/
theorem Ends.lt_lookupFuel {result : Line × Except FlowError Bool}
    (h : relayer.Ends chainId hash line (relayer.Finds chainId hash line) count result) :
    count < relayer.lookupFuel line := by
  rcases Nat.eq_zero_or_pos relayer.poll with hpoll | hpoll
  · exact lt_lookupFuel_of_no_pause hpoll h.in_vain h.not_in_vain
  · exact Relayer.lt_lookupFuel hpoll (le_of_in_vain hpoll h.in_vain) line

/-- However a wait ends by what its lookups find, so it does. -/
theorem awaitReceipt_eq_of_ends {result : Line × Except FlowError Bool}
    (h : relayer.Ends chainId hash line (relayer.Finds chainId hash line) count result) :
    relayer.awaitReceipt chainId hash line = result := by
  have hfuel : count < relayer.lookupFuel line := h.lt_lookupFuel
  have hspare : relayer.lookupFuel line - count = relayer.lookupFuel line - (count + 1) + 1 := by
    omega
  rw [awaitReceipt, lookups_of_in_vain (Nat.le_of_lt hfuel) h.in_vain, hspare]
  cases h with
  | found _ hfinds => rw [lookups_of_finds hfinds]
  | late _ hnone hlate => rw [lookups_of_not_finds hnone, if_pos hlate]

/-- An answer is that of the first receipt that a lookup finds, if none before it
came too late. -/
theorem awaitReceipt_eq_ok_iff :
    (relayer.awaitReceipt chainId hash line).2 = .ok confirmed ↔
      ∃ count, (∀ before < count,
          relayer.InVain chainId hash line (relayer.Finds chainId hash line) before) ∧
        relayer.Finds chainId hash line count confirmed := by
  constructor
  · intro hanswer
    by_cases hover : ∃ count,
        ¬relayer.InVain chainId hash line (relayer.Finds chainId hash line) count
    · obtain ⟨count, result, hends⟩ := exists_ends_of_not_in_vain hover
      rw [awaitReceipt_eq_of_ends hends] at hanswer
      cases hends with
      | found hvain hfinds =>
        cases hanswer
        exact ⟨count, hvain, hfinds⟩
      | late => cases hanswer
    · rw [awaitReceipt, lookups_of_in_vain (Nat.le_refl _) fun before _ =>
        not_not.1 (not_exists.1 hover before), Nat.sub_self] at hanswer
      cases hanswer
  · rintro ⟨count, hvain, hfinds⟩
    rw [awaitReceipt_eq_of_ends (.found hvain hfinds)]

end Lookups

/-- The program stops without a lookup exactly where the clock cannot show the deadline. -/
theorem await?_eq_none_iff {latest : Nat} : relayer.await? latest chainId hash line = none ↔
    latest < line.clock + relayer.timeout := by
  rw [await?, ite_eq_right_iff, ← Nat.not_le]
  exact forall_congr' fun _ => iff_false_intro (Option.some_ne_none _)

/-- Where the clock can show the deadline, a wait ends with the first lookup that is
not in vain: with what its receipt says, however the lookups before it ended, or, if it
found none and ended at the deadline or later, with the error that the transaction was
not mined.  There is at least this one, and at most as many before it as there are
pauses up to the deadline.  A lookup is one request for the receipt of the hash. -/
theorem waits_for_first_receipt (relayer : Relayer) (hpoll : 1 ≤ relayer.poll)
    (latest chainId : Nat) (hash : TxHash) (line : Line)
    (hshown : line.clock + relayer.timeout ≤ latest) :
    (∃ count ≤ (relayer.timeout + relayer.poll - 1) / relayer.poll, ∃ result,
      relayer.await? latest chainId hash line = some result ∧
        relayer.Ends chainId hash line (relayer.Finds chainId hash line) count result) ∧
    ∀ count, ∃ tries ≤ 5,
      (tries = 0 ↔ relayer.node.urls.get? chainId = none) ∧
        (relayer.lookup chainId hash line count).1 =
          (relayer.lineBefore chainId hash line count).tried
            (relayer.receiptPost chainId hash) tries := by
  obtain ⟨count, result, hends⟩ :=
    exists_ends hpoll chainId hash line (relayer.Finds chainId hash line)
  refine ⟨⟨count, le_of_in_vain hpoll hends.in_vain, result, ?_, hends⟩,
    exists_tried_of_lookup relayer chainId hash line⟩
  rw [await?, if_pos hshown, awaitReceipt_eq_of_ends hends]

def awaitedHash : TxHash := ⟨2, by decide⟩

/-- A relayer that has a node for one chain. -/
def singleRelayer (poll timeout : Nat) : Relayer := ⟨"", Rpc.slowClient, poll, timeout⟩

/-- The node limits the rate for one whole request, does not know of the transaction
at the next, and then has its receipt. -/
def lateLine : Line :=
  { replies := List.replicate 5 (.answered 429 "") ++
      [.answered 200 "\x7b\"result\":null\x7d",
       .answered 200 "\x7b\"result\":\x7b\"status\":\"0x1\"\x7d\x7d"] }

/-- What each lookup of the hash sends to the node. -/
def awaitedText : String :=
  "\x7b\"jsonrpc\":\"2.0\",\"id\":1,\"method\":\"eth_getTransactionReceipt\",\"params\":[\"0x" ++
    String.ofList (List.replicate 63 '0') ++ "2\"]\x7d"

/-- The third lookup, which begins behind the deadline, still finds the receipt: the
one before it ended in time. -/
theorem waits_for_first_receipt_of_lateLine :
    let relayer := singleRelayer 7000 40000
    1 ≤ relayer.poll ∧ lateLine.clock + relayer.timeout ≤ 40000 ∧
      ∃ count ≤ 6, ∃ after, relayer.await? 40000 1 awaitedHash lateLine = some (after, .ok true) ∧
        relayer.Ends 1 awaitedHash lateLine (relayer.Finds 1 awaitedHash lateLine) count
          (after, .ok true) ∧
        after.clock = 44000 ∧ after.posted.length = 7 ∧
        ∀ post ∈ after.posted, post.url = "http://node" ∧ post.body.render = awaitedText := by
  intro relayer
  have hpoll : 1 ≤ relayer.poll := by decide
  have hshown : lateLine.clock + relayer.timeout ≤ 40000 := by decide
  have hmost : (relayer.timeout + relayer.poll - 1) / relayer.poll = 6 := by decide
  obtain ⟨⟨count, hcount, ⟨after, outcome⟩, hawait, hends⟩, -⟩ :=
    waits_for_first_receipt relayer hpoll 40000 1 awaitedHash lateLine hshown
  have hresult : relayer.awaitReceipt 1 awaitedHash lateLine = (after, outcome) :=
    awaitReceipt_eq_of_ends hends
  obtain rfl : (relayer.awaitReceipt 1 awaitedHash lateLine).1 = after := congrArg Prod.fst hresult
  obtain rfl : outcome = .ok true := by
    rw [← show (relayer.awaitReceipt 1 awaitedHash lateLine).2 = outcome from
      congrArg Prod.snd hresult]
    decide +kernel
  exact ⟨hpoll, hshown, count, hmost ▸ hcount, _, hawait, hends, by decide +kernel,
    by decide +kernel, by decide +kernel⟩

end Relayer

end DonationFlow
