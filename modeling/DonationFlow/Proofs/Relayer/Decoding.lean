import DonationFlow.Proofs.Json.Record
import DonationFlow.Relayer

/-!
# What the texts of a relayer say

An accepted call is answered with a hash, and one that is not with a refusal, each as a
record.  Which hash and which refusal that is can be told from the text: it writes an
object or an array of texts, with blanks wherever they may stand, and gives no key twice.
Main statement: `decodes`.
-/

namespace DonationFlow

open Json (Blanks Reader Slot WritesArray WritesObject)
open Json.Reader (Fills Yields)

/-- The text writes the hash, with sixty-four digits behind a mark or without one. -/
def TxHash.Writes (text : String) (hash : TxHash) : Prop :=
  ∃ digits, (text.toList = digits ∨ text.toList = '0' :: 'x' :: digits ∨
      text.toList = '0' :: 'X' :: digits) ∧
    digits.length = 64 ∧ Text.value? 16 digits = some hash.toNat

/-- A mark is no digit. -/
theorem Text.value?_of_mark {c : Char} (h : digit? 16 c = none) (digits : List Char) :
    value? 16 ('0' :: c :: digits) = none := by
  simp [value?, h]

theorem TxHash.ofNat?_eq_some_iff {n : Nat} {hash : TxHash} :
    ofNat? n = some hash ↔ n = hash.toNat := by
  unfold ofNat?
  constructor
  · split
    · intro h
      rw [← Option.some.inj h]
    · exact nofun
  · rintro rfl
    rw [dif_pos hash.toNat_lt]

theorem TxHash.parse?_eq_some_iff {text : String} {hash : TxHash} :
    parse? text = some hash ↔ Writes text hash := by
  have hdigits : ∀ digits : List Char,
      (if digits.length = 64 then (Text.value? 16 digits).bind ofNat? else none) = some hash ↔
        digits.length = 64 ∧ Text.value? 16 digits = some hash.toNat := by
    intro digits
    split
    · rename_i hlength
      simp only [Option.bind_eq_some_iff, ofNat?_eq_some_iff, exists_eq_right, hlength, true_and]
    · rename_i hlength
      simp [hlength]
  simp only [parse?]
  split
  · rename_i digits htext
    rw [hdigits]
    refine ⟨fun h => ⟨digits, Or.inr (Or.inl htext), h⟩, ?_⟩
    rintro ⟨other, rfl | hother | hother, h⟩
    · rw [htext, Text.value?_of_mark (by decide)] at h
      cases h.2
    · rw [htext] at hother
      cases hother
      exact h
    · rw [htext] at hother
      cases hother
  · rename_i digits htext
    rw [hdigits]
    refine ⟨fun h => ⟨digits, Or.inr (Or.inr htext), h⟩, ?_⟩
    rintro ⟨other, rfl | hother | hother, h⟩
    · rw [htext, Text.value?_of_mark (by decide)] at h
      cases h.2
    · rw [htext] at hother
      cases hother
    · rw [htext] at hother
      cases hother
      exact h
  · rename_i hsmall hgreat
    rw [hdigits]
    refine ⟨fun h => ⟨text.toList, Or.inl rfl, h⟩, ?_⟩
    rintro ⟨other, rfl | hother | hother, h⟩
    · exact h
    · exact absurd hother (hsmall other)
    · exact absurd hother (hgreat other)

/-! ## Keys of an object -/

/-- The values that the entries give the key, in order. -/
def valuesOf (key : String) (entries : List (String × Option String)) : List (Option String) :=
  (entries.filter (·.1 = key)).map (·.2)

/-- The entries give the key this value, or do not give it and it is null. -/
def Gives (entries : List (String × Option String)) (key : String) (value : Option String) :
    Prop :=
  valuesOf key entries = [value] ∨ valuesOf key entries = [] ∧ value = none

section Keys

variable {α : Type} {take : Option String → Option α} {key other : String} {seen : List String}
  {entries : List (String × Option String)} {value : Option String} {before after : α}

/-- The entries bring what the key stands for from one value to another: they give it
once, and not if it was seen, or they leave it as it is. -/
def Brings (take : Option String → Option α) (key : String) (seen : List String)
    (entries : List (String × Option String)) (before after : α) : Prop :=
  (valuesOf key entries = [] ∧ after = before) ∨
    (key ∉ seen ∧ ∃ value, valuesOf key entries = [value] ∧ take value = some after)

theorem brings_nil : Brings take key seen [] before after ↔ after = before := by
  simp [Brings, valuesOf]

theorem brings_cons_of_ne (h : other ≠ key) :
    Brings take key seen ((other, value) :: entries) before after ↔
      Brings take key (other :: seen) entries before after := by
  have hvalues : valuesOf key ((other, value) :: entries) = valuesOf key entries := by
    simp [valuesOf, h]
  rw [Brings, Brings, hvalues, List.mem_cons, not_or, and_iff_right h.symm]

theorem brings_cons_self :
    Brings take key seen ((key, value) :: entries) before after ↔
      key ∉ seen ∧ ∃ mid, take value = some mid ∧
        Brings take key (key :: seen) entries mid after := by
  have hvalues : valuesOf key ((key, value) :: entries) = value :: valuesOf key entries := by
    simp [valuesOf]
  rw [Brings, hvalues]
  constructor
  · rintro (⟨hnil, -⟩ | ⟨hseen, given, hgiven, htake⟩)
    · cases hnil
    · obtain ⟨rfl, hnil⟩ := List.cons.inj hgiven
      exact ⟨hseen, after, htake, Or.inl ⟨hnil, rfl⟩⟩
  · rintro ⟨hseen, mid, htake, ⟨hnil, rfl⟩ | ⟨hagain, -⟩⟩
    · exact Or.inr ⟨hseen, value, by rw [hnil], htake⟩
    · exact absurd List.mem_cons_self hagain

end Keys

/-! ## The hash of an accepted call -/

/-- A hash is written as a text. -/
def TxHash.slots : List (Slot (Option TxHash)) :=
  [{ name := "hash", take := fun value => (value.bind TxHash.parse?).map fun hash _ => some hash }]

theorem TxHash.fills : List.Forall₂ Fills
    [Json.Reader.Member.of "hash" Json.Reader.txHash fun hash _ => some hash] slots :=
  .cons ⟨rfl, rfl, fun _ value rest h => (Json.Reader.yields_txHash h value rest).map _⟩ .nil

section Hash

variable {entries : List (String × Option String)} {seen : List String} {key : String}
  {value : Option String} {before after : Option TxHash}

theorem TxHash.settle_eq_some_iff : Json.settle slots seen key value before = some after ↔
    if key = "hash" then
      key ∉ seen ∧ (value.bind parse?).map some = some after
    else before = after := by
  unfold Json.settle slots
  rw [List.find?_cons]
  by_cases hkey : key = "hash"
  · subst hkey
    simp [Function.comp_def]
  · simp [hkey, Ne.symm hkey]

theorem TxHash.ofEntries_eq_some_iff : Json.ofEntries slots seen entries before = some after ↔
    Brings (fun value => (value.bind parse?).map some) "hash" seen entries before after := by
  induction entries generalizing seen before with
  | nil => rw [brings_nil, Json.ofEntries, Option.some.injEq, eq_comm]
  | cons entry entries ih =>
    obtain ⟨key, value⟩ := entry
    simp only [Json.ofEntries, Option.bind_eq_some_iff, settle_eq_some_iff, ih]
    by_cases hkey : key = "hash"
    · subst hkey
      simp only [if_true, brings_cons_self, and_assoc, exists_and_left]
    · simp only [if_neg hkey, brings_cons_of_ne hkey, exists_eq_left']

end Hash

namespace Refusal

def slots : List (Slot Refusal) :=
  [{ name := "code", take := fun code => some fun refusal => { refusal with code },
     optional := true },
   { name := "message", take := fun message => some fun refusal => { refusal with message },
     optional := true }]

section Entries

variable {entries : List (String × Option String)} {seen : List String} {key : String}
  {value : Option String} {before after : Refusal}

theorem settle_eq_some_iff : Json.settle slots seen key value before = some after ↔
    if key = "code" then key ∉ seen ∧ { before with code := value } = after
    else if key = "message" then key ∉ seen ∧ { before with message := value } = after
    else before = after := by
  unfold Json.settle slots
  rw [List.find?_cons]
  by_cases hcode : key = "code"
  · subst hcode
    simp
  · by_cases hmessage : key = "message"
    · subst hmessage
      simp
    · simp [hcode, Ne.symm hcode, hmessage, Ne.symm hmessage]

theorem ofEntries_eq_some_iff : Json.ofEntries slots seen entries before = some after ↔
    Brings some "code" seen entries before.code after.code ∧
      Brings some "message" seen entries before.message after.message := by
  induction entries generalizing seen before with
  | nil =>
    rw [brings_nil, brings_nil, Json.ofEntries, Option.some.injEq, eq_comm]
    cases before
    cases after
    simp
  | cons entry entries ih =>
    obtain ⟨key, value⟩ := entry
    simp only [Json.ofEntries, Option.bind_eq_some_iff, settle_eq_some_iff, ih]
    by_cases hcode : key = "code"
    · subst hcode
      simp [brings_cons_self, brings_cons_of_ne, and_assoc]
    · by_cases hmessage : key = "message"
      · subst hmessage
        simp [brings_cons_self, brings_cons_of_ne, and_left_comm]
      · simp [hcode, hmessage, brings_cons_of_ne]

end Entries

theorem fills : List.Forall₂ Fills
    [{ name := "code"
       read := (fun code (refusal : Refusal) => { refusal with code }) <$>
         Json.Reader.optionOf Json.Reader.text
       optional := true },
     { name := "message"
       read := (fun message (refusal : Refusal) => { refusal with message }) <$>
         Json.Reader.optionOf Json.Reader.text
       optional := true }] slots :=
  .cons ⟨rfl, rfl, fun _ value rest h => (Json.Reader.yields_optionOf_text h value rest).map _⟩
    (.cons ⟨rfl, rfl, fun _ value rest h => (Json.Reader.yields_optionOf_text h value rest).map _⟩
      .nil)

end Refusal

/-! ## What a text says -/

namespace Relayer

/-- A text that is an object or an array of texts says what it gives for each key, and
one that is neither says nothing. -/
structure Decodes (text : String) : Prop where
  hash_of_object : ∀ entries object rest, text.toList = object ++ rest →
    WritesObject entries object → ∀ hash, Reader.whole hashReader text = .ok hash ↔
      Blanks rest ∧ ∃ value, valuesOf "hash" entries = [some value] ∧ TxHash.Writes value hash
  hash_of_array : ∀ values array rest, text.toList = array ++ rest →
    WritesArray values array → ∀ hash, Reader.whole hashReader text = .ok hash ↔
      Blanks rest ∧ ∃ value, values = [some value] ∧ TxHash.Writes value hash
  hash_ne : Json.Reader.StartsOtherwise text.toList →
    ∀ hash, Reader.whole hashReader text ≠ .ok hash
  refusal_of_object : ∀ entries object rest, text.toList = object ++ rest →
    WritesObject entries object → ∀ refusal, Reader.whole Refusal.reader text = .ok refusal ↔
      Blanks rest ∧ Gives entries "code" refusal.code ∧ Gives entries "message" refusal.message
  refusal_of_array : ∀ values array rest, text.toList = array ++ rest →
    WritesArray values array → ∀ refusal, Reader.whole Refusal.reader text = .ok refusal ↔
      Blanks rest ∧ (values = [] ∧ refusal = {} ∨
        values = [refusal.code] ∧ refusal.message = none ∨
        values = [refusal.code, refusal.message])
  refusal_ne : Json.Reader.StartsOtherwise text.toList →
    ∀ refusal, Reader.whole Refusal.reader text ≠ .ok refusal

theorem yields_hashReader {text rest : List Char} {outcome : Option (Option TxHash)}
    (h : Yields (Reader.record
      [.of "hash" Json.Reader.txHash fun hash _ => some hash] none text) rest outcome) :
    Yields (hashReader text) rest (outcome.bind id) := by
  refine h.bind fun hash => ?_
  cases hash with
  | none => exact Json.Reader.fails_shape rest
  | some hash => rfl

theorem whole_ne_of_startsOtherwise {α : Type} {reader : Reader α} {text : String}
    (h : ∃ fault left, reader text.toList = .error fault left) (value : α) :
    Reader.whole reader text ≠ .ok value := by
  obtain ⟨fault, left, hreader⟩ := h
  rw [Reader.whole, hreader]
  intro hvalue
  cases hvalue

theorem brings_hash_iff {entries : List (String × Option String)} {hash : TxHash} :
    Brings (fun value => (value.bind TxHash.parse?).map some) "hash" [] entries none (some hash) ↔
      ∃ value, valuesOf "hash" entries = [some value] ∧ TxHash.Writes value hash := by
  have htake : ∀ value : Option String, (value.bind TxHash.parse?).map some = some (some hash) ↔
      ∃ text, value = some text ∧ TxHash.Writes text hash := by
    simp [Option.bind_eq_some_iff, TxHash.parse?_eq_some_iff]
  rw [Brings]
  simp only [htake]
  constructor
  · rintro (⟨-, hnone⟩ | ⟨-, _, hvalues, text, rfl, hwrites⟩)
    · cases hnone
    · exact ⟨text, hvalues, hwrites⟩
  · rintro ⟨text, hvalues, hwrites⟩
    exact Or.inr ⟨List.not_mem_nil, _, hvalues, text, rfl, hwrites⟩

theorem gives_iff {entries : List (String × Option String)} {key : String}
    {value : Option String} : Brings some key [] entries none value ↔ Gives entries key value := by
  simp [Brings, Gives, or_comm]

theorem decodes (text : String) : Decodes text where
  hash_of_object entries object rest htext hobject hash := by
    have hyields := yields_hashReader
      (Json.Reader.yields_object TxHash.fills hobject none rest)
    rw [← htext] at hyields
    rw [hyields.whole_eq_ok_iff, Option.bind_eq_some_iff, ← brings_hash_iff]
    simp only [id, exists_eq_right, TxHash.ofEntries_eq_some_iff]
  hash_of_array values array rest htext harray hash := by
    have hyields := yields_hashReader
      (Json.Reader.yields_array TxHash.fills harray none rest)
    rw [← htext] at hyields
    rw [hyields.whole_eq_ok_iff, Option.bind_eq_some_iff]
    rcases values with _ | ⟨value, _ | ⟨second, values⟩⟩
    · simp [TxHash.slots, Json.ofItems]
    · simp [TxHash.slots, Json.ofItems, TxHash.parse?_eq_some_iff, Option.bind_eq_some_iff]
    · simp [TxHash.slots, Json.ofItems]
  hash_ne hstart := by
    obtain ⟨fault, left, hfault⟩ := Json.Reader.exists_fault_of_startsOtherwise hstart none
    exact whole_ne_of_startsOtherwise ⟨fault, left, Json.Reader.bind_of_error hfault⟩
  refusal_of_object entries object rest htext hobject refusal := by
    have hyields := Json.Reader.yields_object Refusal.fills hobject {} rest
    rw [← htext] at hyields
    rw [Refusal.reader, hyields.whole_eq_ok_iff, Refusal.ofEntries_eq_some_iff, gives_iff,
      gives_iff]
  refusal_of_array values array rest htext harray refusal := by
    have hyields := Json.Reader.yields_array Refusal.fills harray {} rest
    rw [← htext] at hyields
    rw [Refusal.reader, hyields.whole_eq_ok_iff]
    obtain ⟨code, message⟩ := refusal
    rcases values with _ | ⟨first, _ | ⟨second, _ | ⟨third, values⟩⟩⟩
    · simp [Refusal.slots, Json.ofItems, @eq_comm _ none]
    · simp [Refusal.slots, Json.ofItems, @eq_comm _ none]
    · simp [Refusal.slots, Json.ofItems]
    · simp [Refusal.slots, Json.ofItems]
  refusal_ne hstart := by
    rw [Refusal.reader]
    exact whole_ne_of_startsOtherwise (Json.Reader.exists_fault_of_startsOtherwise hstart _)

end Relayer

end DonationFlow
