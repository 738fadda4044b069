import DonationFlow.Proofs.CallData
import DonationFlow.Proofs.Rpc.Retries
import DonationFlow.Proofs.Text.Bytes
import DonationFlow.Rpc.Reads

/-!
# What a read makes of the words of a contract

A contract function is called with words and returns words, of which a read takes the
first one or the first five.  Main statement: `reads_decode_what_was_encoded`.
-/

namespace DonationFlow.Rpc

open CallData (encode wordBytes)
open Http (Line Reply)

/-- The text writes words behind the mark `0x`, with digits in either letter case and
with less than another word behind them. -/
def WritesWords (text : String) (words : List Word) : Prop :=
  ∃ digits tail, text = String.ofList ('0' :: 'x' :: digits) ∧ tail.length < 32 ∧
    Text.WritesBytes digits (words.flatMap wordBytes ++ tail)

/-- A read of a word gives the first one, and fails only for want of any. -/
structure TakesFirst (signature : String) (words : List Word) (outcome : Except FlowError Word) :
    Prop where
  word_iff : ∀ word, outcome = .ok word ↔ words.head? = some word
  error_iff : ∀ error, outcome = .error error ↔ words = [] ∧ error = .rpc (.noWords signature)

/-- A read of a position gives three amounts and two shares, which are cut to their
range, and fails only for want of five words. -/
structure TakesPosition {α : Type} (build : Word → Word → Word → UInt16 → UInt16 → α)
    (signature : String) (words : List Word) (outcome : Except FlowError α) : Prop where
  position_iff : ∀ position, outcome = .ok position ↔
    ∃ first second third cause donor rest, ∃ causeShare donorShare : UInt16,
      words = first :: second :: third :: cause :: donor :: rest ∧
        causeShare.toNat = min cause.toNat 65535 ∧ donorShare.toNat = min donor.toNat 65535 ∧
        position = build first second third causeShare donorShare
  error_iff : ∀ error, outcome = .error error ↔
    words.length < 5 ∧ error = .rpc (.fewWords signature words.length)

section Decoding

variable {text : String} {words : List Word}

/-- Digits do not start with the mark. -/
theorem stripMarks_of_writesBytes {digits : List Char} {bytes : List UInt8}
    (h : Text.WritesBytes digits bytes) : stripMarks digits = digits := by
  cases bytes with
  | nil => rw [h.eq_nil]; rfl
  | cons byte bytes =>
    obtain ⟨high, low, rest, rfl, -, hlow, -⟩ := h.exists_cons
    have hx : low ≠ 'x' := by
      rintro rfl
      have hnone : Text.digit? 16 'x' = none := by decide
      exact nomatch hnone.symm.trans hlow
    rw [stripMarks]
    intro rest' heq
    injection heq with _ heq
    injection heq with heq _
    exact hx heq

theorem WritesWords.returned_eq (h : WritesWords text words) : ∃ tail, tail.length < 32 ∧
    returned (.str text) = .ok (words.flatMap wordBytes ++ tail) := by
  obtain ⟨digits, tail, rfl, htail, hdigits⟩ := h
  refine ⟨tail, htail, ?_⟩
  rw [returned, String.toList_ofList, stripMarks, stripMarks_of_writesBytes hdigits,
    hdigits.bytesOfHex_eq]

theorem WritesWords.map_returned (h : WritesWords text words) :
    (returned (.str text)).map CallData.words = .ok words := by
  obtain ⟨tail, htail, hreturned⟩ := h.returned_eq
  rw [hreturned]
  exact congrArg Except.ok (CallData.words_flatMap_append words htail)

theorem takesFirst (signature : String) (words : List Word) :
    TakesFirst signature words (firstWord signature words) := by
  cases words with
  | nil => constructor <;> simp [firstWord, eq_comm]
  | cons word words => constructor <;> simp [firstWord]

theorem toNat_share (word : Word) : (share word).toNat = min word.toNat 65535 := by
  rw [share, UInt16.toNat_ofNat_of_lt']
  exact Nat.lt_of_le_of_lt (Nat.min_le_right ..) (by decide)

theorem eq_share_iff {word : Word} {part : UInt16} :
    part.toNat = min word.toNat 65535 ↔ part = share word := by
  rw [← toNat_share, UInt16.toNat_inj]

section Position

variable {α : Type} (build : Word → Word → Word → UInt16 → UInt16 → α) (signature : String)

theorem position_of_lt (h : words.length < 5) :
    position signature build words = .error (.rpc (.fewWords signature words.length)) := by
  unfold position
  split
  · simp only [List.length_cons] at h
    omega
  · rfl

theorem takesPosition (words : List Word) :
    TakesPosition build signature words (position signature build words) := by
  match words with
  | first :: second :: third :: cause :: donor :: rest =>
    have hlong : ¬(first :: second :: third :: cause :: donor :: rest).length < 5 := by simp
    refine ⟨fun read => ?_, fun error => iff_of_false nofun fun h => hlong h.1⟩
    rw [position, Except.ok.injEq]
    constructor
    · rintro rfl
      exact ⟨_, _, _, _, _, _, _, _, rfl, toNat_share cause, toNat_share donor, rfl⟩
    · rintro ⟨_, _, _, _, _, _, causeShare, donorShare, heq, hcause, hdonor, rfl⟩
      obtain rfl := eq_share_iff.1 hcause
      obtain rfl := eq_share_iff.1 hdonor
      simp only [List.cons.injEq] at heq
      obtain ⟨rfl, rfl, rfl, rfl, rfl, -⟩ := heq
      rfl
  | [] | [_] | [_, _] | [_, _, _] | [_, _, _, _] =>
    rw [position_of_lt build signature (by simp)]
    constructor <;> simp [eq_comm]

end Position

end Decoding

namespace Client

variable {client : Client} {chainId : Nat} {contract : Address} {signature text : String}
  {arguments words : List Word} {line : Line}

/-- The node answers the call of a contract function with this text. -/
def Answers (client : Client) (chainId : Nat) (contract : Address) (signature : String)
    (arguments : List Word) (line : Line) (text : String) : Prop :=
  let data := String.ofList ('0' :: 'x' :: Text.hexBytes (encode signature arguments))
  let call := Json.obj [("to", contract.toJson), ("data", .str data)]
  (client.request chainId "eth_call" (.arr [call, .str "latest"]) line).2 = .ok (.str text)

/-- A node is asked once if its first reply settles the request. -/
theorem request_of_settled {url method : String} {params : Json}
    {outcome : Except FlowError Json} (hurl : client.urls.get? chainId = some url)
    (h : judge method (line.reply 0) = .settled outcome) :
    (client.request chainId method params line).2 = outcome := by
  have hreply : (line.post ⟨url, body method params⟩).2 = line.reply 0 := Line.reply_waited _ 0 line
  have hpost : judge method (line.post ⟨url, body method params⟩).2 = .settled outcome :=
    hreply ▸ h
  rw [client.request_eq_attempts hurl, attempts_of_settled hpost]

theorem Answers.callWords_eq (h : client.Answers chainId contract signature arguments line text)
    (hwords : WritesWords text words) :
    (client.callWords chainId contract signature arguments line).2 = .ok words := by
  rw [callWords]
  dsimp only
  rw [h]
  exact hwords.map_returned

end Client

/-- What the reads of a contract make of a text that writes words. -/
structure Decodes (client : Client) (line : Line) (text : String) (words : List Word) : Prop where
  words_eq : (returned (.str text)).map CallData.words = .ok words
  balance : ∀ chainId (token : Token) contract owner, token.address = some contract →
    client.Answers chainId contract balanceOf [owner.word] line text →
      TakesFirst balanceOf words (client.balance chainId token owner line).2
  allowance : ∀ chainId (token : Token) contract owner spender, token.address = some contract →
    client.Answers chainId contract allowanceOf [owner.word, spender.word] line text →
      TakesFirst allowanceOf words (client.allowance chainId token owner spender line).2
  staking : ∀ owner campaign,
    client.Answers client.settlementChain client.settlement stakingPosition [owner.word, campaign]
        line text →
      TakesPosition StakingPosition.mk stakingPosition words (client.staking owner campaign line).2
  endowment : ∀ owner campaign,
    client.Answers client.settlementChain client.settlement endowmentPosition
        [owner.word, campaign] line text →
      TakesPosition EndowmentPosition.mk endowmentPosition words
        (client.endowment owner campaign line).2

theorem decodes (client : Client) (line : Line) {text : String} {words : List Word}
    (hwords : WritesWords text words) : Decodes client line text words where
  words_eq := hwords.map_returned
  balance chainId token contract owner hcontract hanswers := by
    rw [Client.balance, hcontract]
    dsimp only
    rw [hanswers.callWords_eq hwords]
    exact takesFirst balanceOf words
  allowance chainId token contract owner spender hcontract hanswers := by
    rw [Client.allowance, hcontract]
    dsimp only
    rw [hanswers.callWords_eq hwords]
    exact takesFirst allowanceOf words
  staking owner campaign hanswers := by
    rw [Client.staking, Client.positionWords]
    dsimp only
    rw [hanswers.callWords_eq hwords]
    exact takesPosition StakingPosition.mk stakingPosition words
  endowment owner campaign hanswers := by
    rw [Client.endowment, Client.positionWords]
    dsimp only
    rw [hanswers.callWords_eq hwords]
    exact takesPosition EndowmentPosition.mk endowmentPosition words

/-- The data of a call: the first four bytes of the digest of the function's signature,
and its arguments, each as the 32 bytes of a number, most significant first. -/
structure Carries (signature : String) (arguments : List Word) (data : List UInt8) : Prop where
  eq_append : data =
    (Keccak.digest signature.toUTF8.toList).take 4 ++ arguments.flatMap wordBytes
  length_selector : ((Keccak.digest signature.toUTF8.toList).take 4).length = 4
  length_wordBytes : ∀ word ∈ arguments, (wordBytes word).length = 32
  number_wordBytes : ∀ word ∈ arguments, CallData.number (wordBytes word) = word.toNat
  words_drop : CallData.words (data.drop 4) = arguments

theorem carries_encode (signature : String) (arguments : List Word) :
    Carries signature arguments (encode signature arguments) where
  eq_append := rfl
  length_selector := Keccak.length_selector signature
  length_wordBytes word _ := CallData.length_wordBytes word
  number_wordBytes word _ := CallData.number_wordBytes word
  words_drop := CallData.words_drop_encode signature arguments

theorem encode_of_mem_listed (entry : String × List UInt8) (h : entry ∈ Keccak.listed)
    (arguments : List Word) :
    encode entry.1 arguments = entry.2 ++ arguments.flatMap wordBytes := by
  rw [encode, Keccak.selector_eq_of_mem_listed entry h]

/-- Words that a contract returns are read as they were written, whatever the letter
case and whatever is left over behind them, and with them its balances, allowances and
positions.  A function is called with its selector and the words of its arguments,
which are read back in the same way; the selectors of the functions in use are the ones
that their contracts list. -/
theorem reads_decode_what_was_encoded (client : Client) (line : Line) :
    (∀ text words, WritesWords text words → Decodes client line text words) ∧
      (∀ signature arguments, Carries signature arguments (encode signature arguments)) ∧
      (∀ entry ∈ Keccak.listed, ∀ arguments,
        encode entry.1 arguments = entry.2 ++ arguments.flatMap wordBytes) ∧
      ∀ signature, (FlowError.rpc (.noWords signature)).message =
        s!"RPC error: {signature} returned no data" :=
  ⟨fun _ _ => decodes client line, carries_encode, encode_of_mem_listed, fun _ => rfl⟩

/-- The text that a reply settles the request with. -/
def settledText? (method : String) (reply : Reply) : Option String :=
  match judge method reply with
  | .settled (.ok (.str text)) => some text
  | _ => none

theorem judge_of_settledText? {method : String} {reply : Reply} {text : String}
    (h : settledText? method reply = some text) :
    judge method reply = .settled (.ok (.str text)) := by
  unfold settledText? at h
  split at h
  · rename_i settled hjudge
    rw [hjudge, Option.some.inj h]
  · cases h

/-- A word with digits in both letter cases, and one byte more. -/
def wordText : String := "0x" ++ String.ofList (List.replicate 62 '0') ++ "fFaB"

def wordReply : Reply := .answered 200 ("\x7b\"result\":\"" ++ wordText ++ "\"\x7d")

def wordClient : Client :=
  ⟨Table.empty.put Chain.settlementId "http://node", default, Chain.settlementId⟩

/-- The word is a balance, but no position. -/
theorem reads_decode_what_was_encoded_of_wordReply :
    let word := Word.wrap 255
    let owner : Address := default
    let token := Token.contract "WETH" default
    let line : Line := { replies := [wordReply] }
    WritesWords wordText [word] ∧
      token.address = some default ∧
      wordClient.Answers Chain.settlementId default balanceOf [owner.word] line wordText ∧
      wordClient.Answers Chain.settlementId default stakingPosition [owner.word, word] line
        wordText ∧
      (wordClient.balance Chain.settlementId token owner line).2 = .ok word ∧
      (wordClient.staking owner word line).2 = .error (.rpc (.fewWords stakingPosition 1)) := by
  intro word owner token line
  have hwords : WritesWords wordText [word] :=
    ⟨List.replicate 62 '0' ++ "fFaB".toList, [0xAB], by decide +kernel, by decide,
      by decide +kernel⟩
  have hurl : wordClient.urls.get? Chain.settlementId = some "http://node" := by decide
  have hreply : judge "eth_call" wordReply = .settled (.ok (.str wordText)) :=
    judge_of_settledText? (by decide +kernel)
  have hbalance : wordClient.Answers Chain.settlementId default balanceOf [owner.word] line
      wordText := Client.request_of_settled hurl hreply
  have hstaking : wordClient.Answers Chain.settlementId default stakingPosition
      [owner.word, word] line wordText := Client.request_of_settled hurl hreply
  obtain ⟨hreads, -⟩ := reads_decode_what_was_encoded wordClient line
  have hdecodes := hreads wordText [word] hwords
  have htakes := hdecodes.balance Chain.settlementId token default owner rfl hbalance
  have hposition := hdecodes.staking owner word hstaking
  exact ⟨hwords, rfl, hbalance, hstaking, (htakes.word_iff word).2 rfl,
    (hposition.error_iff _).2 ⟨by decide, rfl⟩⟩

end DonationFlow.Rpc
