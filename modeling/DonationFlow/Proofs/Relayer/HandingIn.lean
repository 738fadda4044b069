import DonationFlow.Proofs.Relayer.Decoding
import DonationFlow.Proofs.Rpc.Retries
import DonationFlow.Proofs.Text.Blank

/-!
# What comes of handing a call in

A call is handed in by one post, whatever the reply.  The reply names the transaction
that the call became, or tells that the user refused it; any other is a failure of the
submission, which keeps the status and what the reply says.  Main statement:
`handed_in_once_and_judged`.
-/

namespace DonationFlow

open Http (Line Post Reply)
open Json (Reader)

/-- What a text tells of why a call was not taken: the message of a refusal, else its
code, and of any other text what stands between its blanks. -/
inductive Refusal.Details (text : String) : String → Prop
  | message {code : Option String} {message : String}
      (htext : Reader.whole Refusal.reader text = .ok ⟨code, some message⟩) : Details text message
  | code {code : String} (htext : Reader.whole Refusal.reader text = .ok ⟨some code, none⟩) :
      Details text code
  | plain {detail : String}
      (htext : ∀ refusal, Reader.whole Refusal.reader text = .ok refusal → refusal = {})
      (hpadded : Text.Padded text.toList detail.toList)
      (hhead : ∀ c ∈ detail.toList.head?, Text.isBlank c = false)
      (hlast : ∀ c ∈ detail.toList.getLast?, Text.isBlank c = false) : Details text detail

namespace Relayer

/-- The reply is the user's own refusal: an error of the client with the code for it. -/
def RejectsByUser (status : Nat) (text : String) : Prop :=
  (400 ≤ status ∧ status < 500) ∧
    ∃ refusal, Reader.whole Refusal.reader text = .ok refusal ∧
      refusal.code = some "user_rejected"

/-- How a failure is worded; nothing follows the status if there is no detail. -/
def wording (status : Nat) (detail : String) : String :=
  let said := s!"relayer returned {Http.statusLine status}"
  if detail = "" then said else s!"{said}: {detail}"

/-- What a reply makes of the call that was handed in. -/
inductive Takes : Reply → Except FlowError TxHash → Prop
  | unreachable : Takes .dropped (.error (.submissionFailed .unreachable))
  | accepted {status : Nat} {text : String} {hash : TxHash}
      (hstatus : 200 ≤ status ∧ status < 300) (htext : Reader.whole hashReader text = .ok hash) :
      Takes (.answered status text) (.ok hash)
  | unreadable {status : Nat} {text : String} {fault : Json.Fault}
      (hstatus : 200 ≤ status ∧ status < 300)
      (htext : Reader.whole hashReader text = .error fault) :
      Takes (.answered status text) (.error (.submissionFailed .unreadable))
  | rejected {status : Nat} {text : String} (huser : RejectsByUser status text) :
      Takes (.answered status text) (.error .userRejected)
  | refused {status : Nat} {text detail : String} (hstatus : ¬(200 ≤ status ∧ status < 300))
      (hother : ¬RejectsByUser status text) (hdetail : Refusal.Details text detail) :
      Takes (.answered status text)
        (.error (.submissionFailed (.stated (wording status detail))))

section Judging

variable {reply : Reply} {status : Nat} {text : String} {outcome : Except FlowError TxHash}

theorem isSuccess_iff : Http.isSuccess status = true ↔ 200 ≤ status ∧ status < 300 := by
  simp [Http.isSuccess]

theorem isByUser_ofText_iff :
    (Refusal.ofText text).isByUser status = true ↔ RejectsByUser status text := by
  have hcode : (Refusal.ofText text).code = some "user_rejected" ↔
      ∃ refusal, Reader.whole Refusal.reader text = .ok refusal ∧
        refusal.code = some "user_rejected" := by
    unfold Refusal.ofText
    cases Reader.whole Refusal.reader text <;> simp
  rw [Refusal.isByUser, RejectsByUser, ← hcode]
  simp [Http.isClientError]

/-- The detail is found in the order of message, code and text. -/
theorem details_ofText (text : String) :
    Refusal.Details text (((Refusal.ofText text).message <|> (Refusal.ofText text).code).getD
      (String.ofList (Text.trim text.toList))) := by
  have hplain : (∀ refusal, Reader.whole Refusal.reader text = .ok refusal → refusal = {}) →
      Refusal.Details text (String.ofList (Text.trim text.toList)) := by
    intro htext
    refine .plain htext ?_ ?_ ?_ <;> rw [String.toList_ofList]
    · exact Text.padded_trim text.toList
    · exact Text.isBlank_of_head?_trim text.toList
    · exact Text.isBlank_of_getLast?_trim text.toList
  unfold Refusal.ofText
  cases htext : Reader.whole Refusal.reader text with
  | error fault => exact hplain fun refusal hrefusal => nomatch htext.symm.trans hrefusal
  | ok refusal =>
    obtain ⟨code, message⟩ := refusal
    cases message with
    | some message => exact .message htext
    | none =>
      cases code with
      | some code => exact .code htext
      | none =>
        exact hplain fun refusal hrefusal => (Except.ok.inj (htext.symm.trans hrefusal)).symm

theorem takes_outcomeOf (reply : Reply) : Takes reply (outcomeOf reply) := by
  cases reply with
  | dropped => exact .unreachable
  | answered status text =>
    rw [outcomeOf]
    split
    · rename_i hstatus
      rw [isSuccess_iff] at hstatus
      split
      · rename_i htext
        exact .accepted hstatus htext
      · rename_i htext
        exact .unreadable hstatus htext
    · rename_i hstatus
      rw [isSuccess_iff] at hstatus
      rw [failure]
      dsimp only
      split
      · rename_i huser
        exact .rejected (isByUser_ofText_iff.1 huser)
      · rename_i huser
        have hworded := Takes.refused hstatus (huser ∘ isByUser_ofText_iff.2) (details_ofText text)
        simpa only [wording, String.isEmpty_iff] using hworded

theorem outcomeOf_eq_ok_iff {hash : TxHash} : outcomeOf reply = .ok hash ↔
    ∃ status text, reply = .answered status text ∧ (200 ≤ status ∧ status < 300) ∧
      Reader.whole hashReader text = .ok hash := by
  constructor
  · intro hok
    have htakes := takes_outcomeOf reply
    rw [hok] at htakes
    cases htakes with
    | accepted hstatus htext => exact ⟨_, _, rfl, hstatus, htext⟩
  · rintro ⟨status, text, rfl, hstatus, htext⟩
    simp only [outcomeOf, isSuccess_iff.2 hstatus, if_true, htext]

theorem outcomeOf_eq_userRejected_iff : outcomeOf reply = .error .userRejected ↔
    ∃ status text, reply = .answered status text ∧ RejectsByUser status text := by
  constructor
  · intro hrejected
    have htakes := takes_outcomeOf reply
    rw [hrejected] at htakes
    cases htakes with
    | rejected huser => exact ⟨_, _, rfl, huser⟩
  · rintro ⟨status, text, rfl, huser⟩
    have hstatus : ¬Http.isSuccess status = true := by
      rw [isSuccess_iff]
      obtain ⟨hclient, -⟩ := huser
      omega
    rw [outcomeOf, if_neg hstatus, failure]
    dsimp only
    rw [if_pos (isByUser_ofText_iff.2 huser)]

/-- There are no other errors than these two. -/
theorem eq_of_outcomeOf_eq_error {error : FlowError} (h : outcomeOf reply = .error error) :
    error = .userRejected ∨ ∃ fault, error = .submissionFailed fault := by
  have htakes := takes_outcomeOf reply
  rw [h] at htakes
  cases htakes with
  | unreachable | unreadable | refused => exact Or.inr ⟨_, rfl⟩
  | rejected => exact Or.inl rfl

/-- What is said in a reply that is neither a success nor the user's refusal is kept. -/
theorem exists_details_of_failure (hstatus : ¬(200 ≤ status ∧ status < 300))
    (hother : ¬RejectsByUser status text) :
    ∃ detail, Refusal.Details text detail ∧ outcomeOf (.answered status text) =
      .error (.submissionFailed (.stated (wording status detail))) := by
  have htakes := takes_outcomeOf (.answered status text)
  generalize outcomeOf (.answered status text) = outcome at htakes
  cases htakes with
  | accepted hsuccess | unreadable hsuccess => exact absurd hsuccess hstatus
  | rejected huser => exact absurd huser hother
  | refused _ _ hdetail => exact ⟨_, hdetail, rfl⟩

end Judging

/-- Calls are posted under the base URL, whatever slashes it ends with. -/
theorem exists_base_callsUrl (relayer : Relayer) : ∃ base count,
    relayer.baseUrl = base ++ String.ofList (List.replicate count '/') ∧
      base.toList.getLast? ≠ some '/' ∧ relayer.callsUrl = base ++ "/calls" := by
  have hsplit : relayer.baseUrl.toList.rdropWhile (· = '/') ++
      relayer.baseUrl.toList.rtakeWhile (· = '/') = relayer.baseUrl.toList :=
    List.rdropWhile_append_rtakeWhile
  have hslashes : ∀ c ∈ relayer.baseUrl.toList.rtakeWhile (· = '/'), c = '/' := by
    intro c hc
    have hc := List.mem_rtakeWhile_imp hc
    exact of_decide_eq_true hc
  refine ⟨String.ofList (relayer.baseUrl.toList.rdropWhile (· = '/')),
    (relayer.baseUrl.toList.rtakeWhile (· = '/')).length, ?_, ?_, rfl⟩
  · rw [← List.eq_replicate_of_mem hslashes, ← String.ofList_append, hsplit, String.ofList_toList]
  · rw [String.toList_ofList]
    intro hlast
    obtain ⟨hne, heq⟩ := List.mem_getLast?_eq_getLast hlast
    have hnot := List.rdropWhile_last_not (· = '/') relayer.baseUrl.toList hne
    simp [← heq] at hnot

/-- A status is told by its number and a phrase. -/
theorem exists_statusLine_eq (status : Nat) :
    ∃ phrase : String, Http.statusLine status = s!"{Text.decimal status} {phrase}" := ⟨_, rfl⟩

/-- A call is handed in by one post to the relayer's own address, which uses up one
reply and takes no time.  It is accepted exactly if the reply is a success that names the
transaction, and refused by the user exactly if it is an error of the client with the
code for that.  Anything else is a failure of the submission, and one that is answered
with another status than success keeps the status and what the reply tells.  Which
transaction and which refusal a text names is told by the texts it is made of. -/
theorem handed_in_once_and_judged (relayer : Relayer) (chainId : Nat) (request : CallRequest)
    (line : Line) :
    let reply := line.reply 0
    let after := (relayer.handIn chainId request line).1
    let outcome := (relayer.handIn chainId request line).2
    (∃ base count, relayer.baseUrl = base ++ String.ofList (List.replicate count '/') ∧
      base.toList.getLast? ≠ some '/' ∧ relayer.callsUrl = base ++ "/calls") ∧
    after =
      { line with
        replies := line.replies.drop 1
        posted := ⟨relayer.callsUrl, body chainId request⟩ :: line.posted
        times := line.clock :: line.times } ∧
    (∀ hash, outcome = .ok hash ↔
      ∃ status text, reply = .answered status text ∧ (200 ≤ status ∧ status < 300) ∧
        Reader.whole hashReader text = .ok hash) ∧
    (outcome = .error .userRejected ↔
      ∃ status text, reply = .answered status text ∧ RejectsByUser status text) ∧
    (∀ error, outcome = .error error →
      error = .userRejected ∨ ∃ fault, error = .submissionFailed fault) ∧
    (∀ status text, reply = .answered status text → ¬(200 ≤ status ∧ status < 300) →
      ¬RejectsByUser status text →
      (∃ phrase : String, Http.statusLine status = s!"{Text.decimal status} {phrase}") ∧
      ∃ detail, Refusal.Details text detail ∧
        outcome = .error (.submissionFailed (.stated (wording status detail)))) ∧
    ∀ text, Decodes text := by
  intro reply after outcome
  have hreply : (line.post ⟨relayer.callsUrl, body chainId request⟩).2 = reply :=
    Line.reply_waited _ 0 line
  have houtcome : outcome = outcomeOf reply := by
    rw [← hreply]
    rfl
  rw [houtcome]
  refine ⟨relayer.exists_base_callsUrl, ?_, fun hash => outcomeOf_eq_ok_iff,
    outcomeOf_eq_userRejected_iff, fun error => eq_of_outcomeOf_eq_error, ?_, decodes⟩
  · show (line.post _).1 = _
    rw [Line.post, List.drop_one]
  · rintro status text hanswered hstatus hother
    rw [hanswered]
    exact ⟨exists_statusLine_eq status, exists_details_of_failure hstatus hother⟩

/-- What says that the user refused the call. -/
def rejectionText : String := "\x7b\"code\":\"user_rejected\"\x7d"

/-- A gateway that fails, with that text in its reply. -/
def gatewayLine : Line := { replies := [.answered 502 rejectionText, .answered 200 ""] }

/-- A relayer that says so itself. -/
def rejectedLine : Line := { replies := [.answered 403 rejectionText] }

def gatewayRelayer : Relayer := ⟨"http://relayer//", Rpc.slowClient, 1, 1⟩

def acceptedHash : TxHash := ⟨0xAB, by decide⟩

/-- The hash with a mark, and with digits in both letter cases. -/
def acceptedDigits : String := "0X" ++ String.ofList (List.replicate 62 '0') ++ "aB"

def acceptedText : String :=
  "\x7b \"note\": null, \"hash\": \"" ++ acceptedDigits ++ "\" \x7d\n"

def acceptedLine : Line := { replies := [.answered 201 acceptedText, .answered 201 acceptedText] }

theorem blanks_singleton {c : Char} (h : Json.Reader.isBlank c = true) : Json.Blanks [c] := by
  intro d hd
  rwa [List.mem_singleton.1 hd]

/-- The text is an object with blanks in it, and with one behind it. -/
theorem exists_acceptedText_eq : ∃ object, acceptedText.toList = object ++ ['\n'] ∧
    Json.WritesObject [("note", none), ("hash", some acceptedDigits)] object := by
  have hspace : Json.Blanks [' '] := blanks_singleton rfl
  have hnote : Json.WritesEntry ("note", none)
      ([' '] ++ Json.quote "note" ++ [] ++ ':' :: ([' '] ++ Json.writeOption none ++ [])) :=
    .intro hspace Json.blanks_nil (.intro hspace Json.blanks_nil)
  have hhash : Json.WritesEntry ("hash", some acceptedDigits)
      ([' '] ++ Json.quote "hash" ++ [] ++
        ':' :: ([' '] ++ Json.writeOption (some acceptedDigits) ++ [' '])) :=
    .intro hspace Json.blanks_nil (.intro hspace hspace)
  exact ⟨_, by decide +kernel, .full Json.blanks_nil (.cons hnote (.last hhash))⟩

theorem exists_rejectionText_eq : ∃ object, rejectionText.toList = object ++ [] ∧
    Json.WritesObject [("code", some "user_rejected")] object := by
  have hcode : Json.WritesEntry ("code", some "user_rejected")
      ([] ++ Json.quote "code" ++ [] ++
        ':' :: ([] ++ Json.writeOption (some "user_rejected") ++ [])) :=
    .intro Json.blanks_nil Json.blanks_nil (.intro Json.blanks_nil Json.blanks_nil)
  exact ⟨_, by decide +kernel, .full Json.blanks_nil (.last hcode)⟩

/-- The code counts with an error of the client and not with one of the server, and an
object that gives the hash once names it. -/
theorem handed_in_once_and_judged_of_gatewayLine :
    let request : CallRequest := ⟨default, .zero, .donateNative .zero⟩
    let failed := gatewayRelayer.handIn 1 request gatewayLine
    let rejected := gatewayRelayer.handIn 1 request rejectedLine
    let accepted := gatewayRelayer.handIn 1 request acceptedLine
    (¬(200 ≤ 502 ∧ 502 < 300) ∧ ¬RejectsByUser 502 rejectionText ∧
      (∃ detail, Refusal.Details rejectionText detail ∧
        failed.2 = .error (.submissionFailed (.stated (wording 502 detail)))) ∧
      failed.2 = .error (.submissionFailed
        (.stated "relayer returned 502 Bad Gateway: user_rejected"))) ∧
    (RejectsByUser 403 rejectionText ∧ rejected.2 = .error .userRejected) ∧
    accepted.2 = .ok acceptedHash ∧
      accepted.1.posted.map (·.url) = ["http://relayer/calls"] ∧
      accepted.1.replies = [.answered 201 acceptedText] := by
  intro request failed rejected accepted
  have hserver : ¬RejectsByUser 502 rejectionText := by
    rintro ⟨⟨-, hclient⟩, -⟩
    omega
  have hclient : RejectsByUser 403 rejectionText := by
    obtain ⟨-, -, -, -, -, -, hdecodes⟩ :=
      handed_in_once_and_judged gatewayRelayer 1 request rejectedLine
    obtain ⟨object, htext, hobject⟩ := exists_rejectionText_eq
    have hrefusal := (hdecodes rejectionText).refusal_of_object _ object _ htext hobject
      ⟨some "user_rejected", none⟩
    exact ⟨by decide, _, hrefusal.2 ⟨Json.blanks_nil, Or.inl rfl, Or.inr ⟨rfl, rfl⟩⟩, rfl⟩
  have haccepted : Reader.whole hashReader acceptedText = .ok acceptedHash := by
    obtain ⟨-, -, -, -, -, -, hdecodes⟩ :=
      handed_in_once_and_judged gatewayRelayer 1 request acceptedLine
    obtain ⟨object, htext, hobject⟩ := exists_acceptedText_eq
    have hwrites : TxHash.Writes acceptedDigits acceptedHash :=
      ⟨_, Or.inr (Or.inr rfl), by decide +kernel, by decide +kernel⟩
    exact ((hdecodes acceptedText).hash_of_object _ object _ htext hobject _).2
      ⟨blanks_singleton rfl, acceptedDigits, by decide +kernel, hwrites⟩
  obtain ⟨-, -, -, -, -, hfailed, -⟩ :=
    handed_in_once_and_judged gatewayRelayer 1 request gatewayLine
  obtain ⟨-, -, -, hrejected, -⟩ :=
    handed_in_once_and_judged gatewayRelayer 1 request rejectedLine
  obtain ⟨-, -, hnamed, -⟩ := handed_in_once_and_judged gatewayRelayer 1 request acceptedLine
  exact ⟨⟨by decide, hserver, (hfailed 502 rejectionText rfl (by decide) hserver).2,
      by decide +kernel⟩,
    ⟨hclient, hrejected.2 ⟨403, rejectionText, rfl, hclient⟩⟩,
    (hnamed acceptedHash).2 ⟨201, acceptedText, rfl, by decide, haccepted⟩,
    by decide +kernel, rfl⟩

end Relayer

end DonationFlow
