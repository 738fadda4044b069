import DonationFlow.Rpc.Request
import Mathlib.Algebra.Order.Ring.Nat
import Mathlib.Data.Nat.Find
import Mathlib.Tactic.SplitIfs

/-!
# How often a node is asked

Each reply is decisive or a setback, whatever came before it.  A request is
posted until the first decisive reply, and answers as that reply says; after the
fifth setback it gives up.  Between two posts stands one pause, twice as long as
the one before it, and none behind the last post.  Main statement:
`posted_until_decisive`.
-/

namespace DonationFlow

namespace Text

theorem holds_iff_isInfix {word text : List Char} : holds word text = true ↔ word <:+: text := by
  induction text with
  | nil => simp [holds]
  | cons c rest ih => simp [holds, ih, List.infix_cons_iff]

end Text

namespace Http.Line

/-- The reply that a post gets after so many others. -/
def reply (line : Line) (count : Nat) : Reply := line.replies.getD count line.idle

/-- Milliseconds from the first post of a row to the one after so many others, if
the first pause takes two seconds and each takes twice as long as the one before. -/
def delay (count : Nat) : Nat := 1000 * (2 ^ (count + 1) - 2)

/-- The line when the same was posted so many times in a row. -/
def tried (post : Post) (count : Nat) (line : Line) : Line where
  replies := line.replies.drop count
  idle := line.idle
  posted := List.replicate count post ++ line.posted
  times := ((List.range count).map fun before => line.clock + delay before).reverse ++ line.times
  clock := line.clock + delay (count - 1)

/-- The line when so many posts were made in vain, each with its pause behind it. -/
def waited (post : Post) : Nat → Line → Line
  | 0, line => line
  | count + 1, line => ((waited post count line).post post).1.sleep (2000 * 2 ^ count)

theorem tried_zero (line : Line) (post : Post) : line.tried post 0 = line := by
  simp [tried, delay]

theorem delay_succ (count : Nat) : delay (count + 1) = delay count + 2000 * 2 ^ count := by
  have hpos : 0 < 2 ^ count := Nat.two_pow_pos count
  simp only [delay, Nat.pow_succ]
  omega

theorem waited_eq (post : Post) (count : Nat) (line : Line) :
    waited post count line =
      { replies := line.replies.drop count
        idle := line.idle
        posted := List.replicate count post ++ line.posted
        times :=
          ((List.range count).map fun before => line.clock + delay before).reverse ++ line.times
        clock := line.clock + delay count } := by
  induction count with
  | zero => simp [waited, delay]
  | succ count ih =>
    rw [waited, ih]
    simp [Line.post, sleep, List.range_succ, List.replicate_succ, delay_succ, Nat.add_assoc]

/-- The post after those in vain gets the reply that stands there. -/
theorem reply_waited (post : Post) (count : Nat) (line : Line) :
    ((waited post count line).post post).2 = line.reply count := by
  rw [waited_eq, Line.post, reply]
  dsimp only
  rw [List.headD_eq_head?_getD, List.head?_drop, List.getD_eq_getElem?_getD]

/-- With the last post no pause comes in. -/
theorem post_waited (post : Post) (count : Nat) (line : Line) :
    ((waited post count line).post post).1 = tried post (count + 1) line := by
  rw [waited_eq]
  simp [Line.post, tried, List.range_succ, List.replicate_succ]

end Http.Line

namespace Rpc

open Http (Line Post Reply)
open Json (Reader)

/-- What a decisive reply makes of a request: a text that is no answer of the
protocol, a result, an error that stays, or the error of a reverted call. -/
inductive Settles (method : String) : Reply → Except FlowError Json → Prop
  | unreadable {status : Nat} {text : String} {fault : Json.Fault}
      (hstatus : status ≠ Http.tooManyRequests)
      (htext : Reader.whole Answer.reader text = .error fault) :
      Settles method (.answered status text) (.error (.http .unreadable))
  | result {status : Nat} {text : String} {result : Option Json}
      (hstatus : status ≠ Http.tooManyRequests)
      (htext : Reader.whole Answer.reader text = .ok ⟨result, none⟩) :
      Settles method (.answered status text) (.ok (result.getD .null))
  | hard {status : Nat} {text : String} {result : Option Json} {code : Int} {message : String}
      (hstatus : status ≠ Http.tooManyRequests)
      (htext : Reader.whole Answer.reader text = .ok ⟨result, some (code, message)⟩)
      (hcode : code = -32600 ∨ code = -32601) :
      Settles method (.answered status text) (.error (.rpc (.hard code message)))
  | reverted {status : Nat} {text : String} {result : Option Json} {code : Int} {message : String}
      (hstatus : status ≠ Http.tooManyRequests)
      (htext : Reader.whole Answer.reader text = .ok ⟨result, some (code, message)⟩)
      (hcode : ¬(code = -32600 ∨ code = -32601))
      (hrevert : code = 3 ∨ "revert".toList <:+: message.toList) :
      Settles method (.answered status text) (.error (.rpc (.reverted method message)))

/-- A decisive reply is an answer, within the rate limit, that cannot be read, or
names no error, or one that another attempt would not change. -/
def Decisive : Reply → Prop
  | .dropped => False
  | .answered status text => status ≠ Http.tooManyRequests ∧
      ∀ result code message,
        Reader.whole Answer.reader text = .ok ⟨result, some (code, message)⟩ →
          code = -32600 ∨ code = -32601 ∨ code = 3 ∨ "revert".toList <:+: message.toList

/-- What a request ends with when the last attempt is set back, too. -/
inductive GivesUp (method : String) (chainId : Nat) : Reply → FlowError → Prop
  | unreachable : GivesUp method chainId .dropped (.http .unreachable)
  | rateLimited {text : String} :
      GivesUp method chainId (.answered Http.tooManyRequests text)
        (.rpc (.exhausted method chainId 5 "rate-limited"))
  | soft {status : Nat} {text : String} {result : Option Json} {code : Int} {message : String}
      (hstatus : status ≠ Http.tooManyRequests)
      (htext : Reader.whole Answer.reader text = .ok ⟨result, some (code, message)⟩) :
      GivesUp method chainId (.answered status text)
        (.rpc (.exhausted method chainId 5 s!"soft error {signedDecimal code} {message}"))

/-- What a reply is judged to be. -/
inductive Judges (method : String) : Reply → Judgement → Prop
  | settled {reply : Reply} {outcome : Except FlowError Json}
      (hsettles : Settles method reply outcome) : Judges method reply (.settled outcome)
  | unreachable : Judges method .dropped (.setback .unreachable)
  | rateLimited {text : String} :
      Judges method (.answered Http.tooManyRequests text) (.setback .rateLimited)
  | soft {status : Nat} {text : String} {result : Option Json} {code : Int} {message : String}
      (hstatus : status ≠ Http.tooManyRequests)
      (htext : Reader.whole Answer.reader text = .ok ⟨result, some (code, message)⟩)
      (hcode : ¬(code = -32600 ∨ code = -32601))
      (hrevert : ¬(code = 3 ∨ "revert".toList <:+: message.toList)) :
      Judges method (.answered status text) (.setback (.soft code message))

section Judging

variable {method : String} {reply : Reply} {outcome : Except FlowError Json} {setback : Setback}

theorem isHard_iff {code : Int} : isHard code = true ↔ code = -32600 ∨ code = -32601 := by
  simp [isHard]

theorem isRevert_iff {code : Int} {message : String} :
    isRevert code message = true ↔ code = 3 ∨ "revert".toList <:+: message.toList := by
  rw [isRevert, Bool.or_eq_true, decide_eq_true_eq, Text.holds_iff_isInfix]

theorem judges_judge (method : String) (reply : Reply) :
    Judges method reply (judge method reply) := by
  cases reply with
  | dropped => exact .unreachable
  | answered status text =>
    rw [judge]
    split
    · rename_i hstatus
      rw [hstatus]
      exact .rateLimited
    · rename_i hstatus
      split
      · rename_i fault htext
        exact .settled (.unreadable hstatus htext)
      · rename_i result htext
        exact .settled (.result hstatus htext)
      · rename_i result code message htext
        simp only [judgeError, isHard_iff, isRevert_iff]
        split_ifs with hcode hrevert
        · exact .settled (.hard hstatus htext hcode)
        · exact .settled (.reverted hstatus htext hcode hrevert)
        · exact .soft hstatus htext hcode hrevert

theorem decisive_of_settles (h : Settles method reply outcome) : Decisive reply := by
  cases h with
  | unreadable hstatus htext =>
    refine ⟨hstatus, fun result code message hother => ?_⟩
    rw [htext] at hother
    cases hother
  | result hstatus htext =>
    refine ⟨hstatus, fun result code message hother => ?_⟩
    rw [htext] at hother
    cases hother
  | hard hstatus htext hcode =>
    refine ⟨hstatus, fun result code message hother => ?_⟩
    rw [htext] at hother
    cases hother
    exact hcode.elim Or.inl (Or.inr ∘ Or.inl)
  | reverted hstatus htext hcode hrevert =>
    refine ⟨hstatus, fun result code message hother => ?_⟩
    rw [htext] at hother
    cases hother
    exact Or.inr (Or.inr hrevert)

theorem not_decisive_of_judges (h : Judges method reply (.setback setback)) :
    ¬Decisive reply := by
  cases h with
  | unreachable => exact id
  | rateLimited => exact fun hdecisive => hdecisive.1 rfl
  | soft _ htext hcode hrevert =>
    rintro ⟨-, hdecisive⟩
    rcases hdecisive _ _ _ htext with hother | hother | hother
    · exact hcode (Or.inl hother)
    · exact hcode (Or.inr hother)
    · exact hrevert hother

/-- A decisive reply is judged as settled, and settles what it says. -/
theorem exists_judge_of_decisive (method : String) (h : Decisive reply) :
    ∃ outcome, judge method reply = .settled outcome ∧ Settles method reply outcome := by
  have hjudges := judges_judge method reply
  cases hjudge : judge method reply with
  | settled outcome =>
    rw [hjudge] at hjudges
    cases hjudges with
    | settled hsettles => exact ⟨outcome, rfl, hsettles⟩
  | setback setback => exact absurd h (not_decisive_of_judges (hjudge ▸ hjudges))

/-- Any other is a setback, and gives up where it is the last. -/
theorem exists_judge_of_not_decisive (method : String) (chainId : Nat) (h : ¬Decisive reply) :
    ∃ setback, judge method reply = .setback setback ∧
      GivesUp method chainId reply (setback.final method chainId) := by
  have hjudges := judges_judge method reply
  generalize judge method reply = judgement at hjudges
  cases hjudges with
  | settled hsettles => exact absurd (decisive_of_settles hsettles) h
  | unreachable => exact ⟨_, rfl, .unreachable⟩
  | rateLimited => exact ⟨_, rfl, .rateLimited⟩
  | soft hstatus htext => exact ⟨_, rfl, .soft hstatus htext⟩

instance : DecidablePred Decisive := fun reply =>
  match hjudge : judge "" reply with
  | .settled _ => isTrue (by
      by_contra hnot
      obtain ⟨setback, hsetback, -⟩ := exists_judge_of_not_decisive "" 0 hnot
      rw [hjudge] at hsetback
      cases hsetback)
  | .setback _ => isFalse (not_decisive_of_judges (hjudge ▸ judges_judge "" reply))

end Judging

section Trying

variable {post : Post} {method : String} {chainId : Nat} {line : Line} {spare pause : Nat}
  {outcome : Except FlowError Json} {setback : Setback}

theorem attempts_of_settled (h : judge method (line.post post).2 = .settled outcome) :
    attempts post method chainId spare pause line = ((line.post post).1, outcome) := by
  cases spare <;> simp only [attempts, h]

theorem attempts_of_last_setback (h : judge method (line.post post).2 = .setback setback) :
    attempts post method chainId 0 pause line =
      ((line.post post).1, .error (setback.final method chainId)) := by
  simp only [attempts, h]

theorem attempts_of_setback (h : judge method (line.post post).2 = .setback setback) :
    attempts post method chainId (spare + 1) pause line =
      attempts post method chainId spare (min (2 * pause) maxPause)
        ((line.post post).1.sleep pause) := by
  simp only [attempts, h]

/-- An attempt in vain is followed by its pause and the attempts that are left. -/
theorem attempts_waited {count : Nat} (hcount : count < 4) (h : ¬Decisive (line.reply count)) :
    attempts post method chainId (spare + 1) (2000 * 2 ^ count) (line.waited post count) =
      attempts post method chainId spare (2000 * 2 ^ (count + 1))
        (line.waited post (count + 1)) := by
  obtain ⟨setback, hjudge, -⟩ := exists_judge_of_not_decisive method chainId h
  rw [← Line.reply_waited post] at hjudge
  -- Four pauses are too few to reach the longest one.
  have hpause : min (2 * (2000 * 2 ^ count)) maxPause = 2000 * 2 ^ (count + 1) := by
    have hle : 2 ^ count ≤ 2 ^ 3 := Nat.pow_le_pow_right (by decide) (by omega)
    rw [maxPause, Nat.pow_succ]
    generalize 2 ^ count = factor at hle ⊢
    omega
  rw [attempts_of_setback hjudge, hpause, Line.waited]

variable (post method chainId)

/-- However many attempts in vain come first, the rest go on from there. -/
theorem attempts_of_in_vain {count : Nat} (hcount : count ≤ 4)
    (h : ∀ before < count, ¬Decisive (line.reply before)) :
    attempts post method chainId 4 firstPause line =
      attempts post method chainId (4 - count) (2000 * 2 ^ count) (line.waited post count) := by
  induction count with
  | zero => rfl
  | succ count ih =>
    have hspare : 4 - count = 4 - (count + 1) + 1 := by omega
    rw [ih (by omega) fun before hbefore => h before (by omega), hspare,
      attempts_waited (by omega) (h count (by omega))]

/-- The first decisive reply ends the attempts. -/
theorem attempts_of_decisive {count : Nat} (hcount : count < 5)
    (hdecisive : Decisive (line.reply count))
    (h : ∀ before < count, ¬Decisive (line.reply before)) :
    ∃ outcome, Settles method (line.reply count) outcome ∧
      attempts post method chainId 4 firstPause line =
        (line.tried post (count + 1), outcome) := by
  obtain ⟨outcome, hjudge, hsettles⟩ := exists_judge_of_decisive method hdecisive
  rw [← Line.reply_waited post] at hjudge
  refine ⟨outcome, hsettles, ?_⟩
  rw [attempts_of_in_vain post method chainId (by omega) h, attempts_of_settled hjudge,
    Line.post_waited]

/-- Without a decisive reply the fifth setback does. -/
theorem attempts_of_exhausted (h : ∀ before < 5, ¬Decisive (line.reply before)) :
    ∃ error, GivesUp method chainId (line.reply 4) error ∧
      attempts post method chainId 4 firstPause line = (line.tried post 5, .error error) := by
  obtain ⟨setback, hjudge, hgivesUp⟩ :=
    exists_judge_of_not_decisive method chainId (h 4 (by decide))
  refine ⟨_, hgivesUp, ?_⟩
  rw [← Line.reply_waited post] at hjudge
  rw [attempts_of_in_vain post method chainId (Nat.le_refl 4) fun before hbefore =>
    h before (by omega), attempts_of_last_setback hjudge, Line.post_waited]

/-- Whatever the replies, one post is made, and five at most. -/
theorem exists_tried_of_attempts : ∃ count, 1 ≤ count ∧ count ≤ 5 ∧
    (attempts post method chainId 4 firstPause line).1 = line.tried post count := by
  by_cases h : ∃ count, count < 5 ∧ Decisive (line.reply count)
  · obtain ⟨hcount, hdecisive⟩ := Nat.find_spec h
    have hsetbacks : ∀ before < Nat.find h, ¬Decisive (line.reply before) :=
      fun before hbefore hother => Nat.find_min h hbefore ⟨by omega, hother⟩
    obtain ⟨outcome, -, hattempts⟩ :=
      attempts_of_decisive post method chainId hcount hdecisive hsetbacks
    exact ⟨Nat.find h + 1, by omega, by omega, congrArg Prod.fst hattempts⟩
  · have hsetbacks : ∀ before < 5, ¬Decisive (line.reply before) :=
      fun before hbefore hother => h ⟨before, hbefore, hother⟩
    obtain ⟨error, -, hattempts⟩ := attempts_of_exhausted post method chainId hsetbacks
    exact ⟨5, by decide, by decide, congrArg Prod.fst hattempts⟩

end Trying

theorem Client.request_eq_attempts (client : Client) {chainId : Nat} {url : String}
    (hurl : client.urls.get? chainId = some url) (method : String) (params : Json) (line : Line) :
    client.request chainId method params line =
      attempts ⟨url, body method params⟩ method chainId 4 firstPause line := by
  simp only [Client.request, hurl]
  rfl

theorem Client.request_of_no_url (client : Client) {chainId : Nat}
    (hurl : client.urls.get? chainId = none) (method : String) (params : Json) (line : Line) :
    client.request chainId method params line = (line, .error (.config (.noUrl chainId))) := by
  simp only [Client.request, hurl]

/-- What a request posts, each time anew. -/
def Client.postOf (client : Client) (chainId : Nat) (method : String) (params : Json) : Post :=
  ⟨(client.urls.get? chainId).getD "", body method params⟩

/-- A request is posted five times at most, and not at all exactly without an address. -/
theorem Client.exists_tried_of_request (client : Client) (chainId : Nat) (method : String)
    (params : Json) (line : Line) : ∃ tries ≤ 5,
      (tries = 0 ↔ client.urls.get? chainId = none) ∧
        (client.request chainId method params line).1 =
          line.tried (client.postOf chainId method params) tries := by
  cases hurl : client.urls.get? chainId with
  | none =>
    rw [client.request_of_no_url hurl]
    exact ⟨0, by decide, iff_of_true rfl rfl, (line.tried_zero _).symm⟩
  | some url =>
    rw [client.request_eq_attempts hurl, postOf, hurl]
    obtain ⟨count, hpos, hcount, htried⟩ :=
      @exists_tried_of_attempts ⟨url, body method params⟩ method chainId line
    exact ⟨count, hcount, iff_of_false (Nat.ne_of_gt hpos) (Option.some_ne_none url), htried⟩

/-- Once the replies are used up, all requests are answered alike: either at once,
or by giving up after thirty seconds. -/
theorem Client.request_of_spent (client : Client) (chainId : Nat) (method : String)
    (params : Json) (idle : Reply) :
    (∃ outcome, ∀ line : Line, line.idle = idle →
      (client.urls.get? chainId ≠ none → line.replies = []) →
        (client.request chainId method params line).2 = outcome ∧
          (client.request chainId method params line).1.clock = line.clock) ∨
    ∀ line : Line, line.idle = idle →
      (client.urls.get? chainId ≠ none → line.replies = []) →
        (client.request chainId method params line).1.clock = line.clock + 30000 := by
  cases hurl : client.urls.get? chainId with
  | none =>
    refine Or.inl ⟨.error (.config (.noUrl chainId)), fun line _ _ => ?_⟩
    rw [client.request_of_no_url hurl]
    exact ⟨rfl, rfl⟩
  | some url =>
    by_cases hdecisive : Decisive idle
    · obtain ⟨outcome, hjudge, -⟩ := exists_judge_of_decisive method hdecisive
      refine Or.inl ⟨outcome, fun line hidle hspent => ?_⟩
      have hreply : (line.post ⟨url, body method params⟩).2 = idle := by
        rw [Line.post, hspent (Option.some_ne_none url), hidle]
        rfl
      rw [client.request_eq_attempts hurl, attempts_of_settled (by rw [hreply, hjudge])]
      exact ⟨rfl, rfl⟩
    · refine Or.inr fun line hidle hspent => ?_
      have hsetbacks : ∀ before < 5, ¬Decisive (line.reply before) := by
        intro before _
        rw [Line.reply, hspent (Option.some_ne_none url), hidle]
        exact hdecisive
      obtain ⟨error, -, hattempts⟩ :=
        attempts_of_exhausted ⟨url, body method params⟩ method chainId hsetbacks
      rw [client.request_eq_attempts hurl, hattempts]
      rfl

def slowClient : Client :=
  ⟨Table.empty.put 1 "http://node", default, Chain.settlementId⟩

end Rpc

end DonationFlow
