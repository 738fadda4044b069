import DonationFlow.Json.Shape
import DonationFlow.Proofs.Json.Text

/-!
# Texts and null, read back

A value that is a text or null is written in one way, and blanks may stand before it.
It is passed over whole, and read as a text, as an optional one, or as a hash.  Main
statements: `skip_writeOption`, `yields_text`, `yields_optionOf_text`, `yields_txHash`.
-/

namespace DonationFlow.Json

def Blanks (text : List Char) : Prop := ∀ c ∈ text, Reader.isBlank c = true

theorem blanks_nil : Blanks [] := by
  intro c hc
  cases hc

/-- `null` for nothing, else the text in quotes. -/
def writeOption (value : Option String) : List Char := chars (ofOption str value)

theorem writeOption_none : writeOption none = "null".toList := by
  rw [writeOption, ofOption, chars]

theorem writeOption_some_append (text : String) (rest : List Char) :
    writeOption (some text) ++ rest = '"' :: (text.toList.flatMap escape ++ '"' :: rest) := by
  rw [writeOption, ofOption, chars, quote]
  simp

namespace Reader

/-- What came of reading: a value, and the rest is left, or a fault. -/
def Yields {α : Type} (result : EStateM.Result Fault (List Char) α) (rest : List Char) :
    Option α → Prop
  | some value => result = .ok value rest
  | none => ∃ fault left, result = .error fault left

/-- The reader makes nothing of any text. -/
def Fails {α : Type} (reader : Reader α) : Prop :=
  ∀ text, ∃ fault left, reader text = .error fault left

section Steps

variable {α β : Type} {reader : Reader α} {next : α → Reader β} {text mid rest : List Char}

theorem bind_of_ok {value : α} (h : reader text = .ok value mid) :
    (reader >>= next) text = next value mid := by
  show EStateM.bind reader next text = _
  rw [EStateM.bind, h]

theorem bind_of_error {fault : Fault} (h : reader text = .error fault mid) :
    (reader >>= next) text = .error fault mid := by
  show EStateM.bind reader next text = _
  rw [EStateM.bind, h]

theorem Yields.bind {outcome : Option α} {finish : α → Option β}
    (h : Yields (reader text) mid outcome)
    (hnext : ∀ value, Yields (next value mid) rest (finish value)) :
    Yields ((reader >>= next) text) rest (outcome.bind finish) := by
  cases outcome with
  | none =>
    obtain ⟨fault, left, hreader⟩ := h
    exact ⟨fault, left, bind_of_error hreader⟩
  | some value =>
    rw [bind_of_ok h]
    exact hnext value

theorem Yields.map {outcome : Option α} (h : Yields (reader text) rest outcome) (f : α → β) :
    Yields ((f <$> reader) text) rest (outcome.map f) := by
  show Yields (EStateM.map f reader text) rest _
  rw [EStateM.map]
  cases outcome with
  | none =>
    obtain ⟨fault, left, hreader⟩ := h
    rw [hreader]
    exact ⟨fault, left, rfl⟩
  | some value =>
    have hread : reader text = .ok value rest := h
    rw [hread]
    rfl

/-- A whole text is read where nothing but blanks is left. -/
theorem Yields.whole_eq_ok_iff {text : String} {outcome : Option α}
    (h : Yields (reader text.toList) rest outcome) (value : α) :
    whole reader text = .ok value ↔ Blanks rest ∧ outcome = some value := by
  rw [whole]
  cases outcome with
  | none =>
    obtain ⟨fault, left, hreader⟩ := h
    rw [hreader]
    exact ⟨nofun, nofun⟩
  | some read =>
    have hread : reader text.toList = .ok read rest := h
    rw [hread]
    dsimp only
    rw [Blanks, ← List.all_eq_true]
    split
    · rename_i hrest
      rw [Except.ok.injEq, Option.some.injEq, and_iff_right hrest]
    · rename_i hrest
      exact ⟨nofun, fun hread => absurd hread.1 hrest⟩

theorem fails_shape : Fails (shape : Reader α) := fun text => ⟨.shape, text, rfl⟩

theorem fails_bind (h : ∀ value, Fails (next value)) : Fails (reader >>= next) := by
  intro text
  cases hread : reader text with
  | ok value mid =>
    obtain ⟨fault, left, hnext⟩ := h value mid
    exact ⟨fault, left, (bind_of_ok hread).trans hnext⟩
  | error fault left => exact ⟨fault, left, bind_of_error hread⟩

/-- A value of another shape is no value, however it reads. -/
theorem fails_otherShape : Fails (otherShape : Reader α) := by
  unfold otherShape
  refine fails_bind fun next => ?_
  dsimp only
  split
  · exact fails_bind fun _ => fails_shape
  · exact fails_bind fun _ => fails_shape
  · exact fails_bind fun _ => fails_shape
  · exact fails_bind fun _ => fails_bind fun _ => fails_shape
  · exact fails_shape
  · exact fails_shape
  · split
    · exact fails_bind fun _ => fails_shape
    · exact fails_bind fun _ => fails_shape
  · exact fails_bind fun _ => fails_shape

end Steps

section Characters

variable {blanks : List Char}

theorem take_cons (c : Char) (rest : List Char) : take (c :: rest) = .ok () rest := rfl

theorem peek_blanks (h : Blanks blanks) {c : Char} (hc : isBlank c = false) (rest : List Char) :
    peek (blanks ++ c :: rest) = .ok (some c) (c :: rest) := by
  rw [peek, List.dropWhile_append_of_pos h, List.dropWhile_cons_of_neg (Bool.eq_false_iff.1 hc)]
  rfl

theorem peek_null (h : Blanks blanks) (rest : List Char) :
    peek (blanks ++ (writeOption none ++ rest)) = .ok (some 'n') (writeOption none ++ rest) := by
  rw [writeOption_none]
  exact peek_blanks h (by decide) _

theorem peek_text (h : Blanks blanks) (text : String) (rest : List Char) :
    peek (blanks ++ (writeOption (some text) ++ rest)) =
      .ok (some '"') (writeOption (some text) ++ rest) := by
  rw [writeOption_some_append]
  exact peek_blanks h (by decide) _

theorem expect_append (word rest : List Char) : expect word (word ++ rest) = .ok () rest := by
  induction word with
  | nil => rfl
  | cons c word ih =>
    have htaken : optional c (c :: word ++ rest) = .ok true (word ++ rest) := if_pos rfl
    rw [expect, bind_of_ok htaken, if_pos rfl, ih]

theorem expect_null (rest : List Char) :
    expect "null".toList (writeOption none ++ rest) = .ok () rest := by
  rw [writeOption_none]
  exact expect_append _ rest

theorem quoted_escape (text : String) (rest : List Char) :
    quoted false (text.toList.flatMap escape ++ '"' :: rest) = .ok text rest := by
  rw [quoted, if_neg Bool.false_ne_true, bind_of_ok (characters_quote text.toList rest)]
  show EStateM.Result.ok (String.ofList text.toList) rest = _
  rw [String.ofList_toList]

theorem passQuoted_escape (c : Char) (rest : List Char) :
    passQuoted (escape c ++ rest) = passQuoted rest := by
  unfold escape
  split_ifs with hquote hslash hline hreturn htab hback hfeed hcontrol
  · rfl
  · rfl
  · rfl
  · rfl
  · rfl
  · rfl
  · rfl
  · have hvalue := Text.value?_hexPadded 4 c.toNat
    have hlength : (Text.hexPadded 4 c.toNat).length = 4 :=
      Text.length_hexPadded (by omega) (Nat.lt_of_lt_of_le hcontrol (by decide))
    obtain ⟨w, x, y, z, hdigits⟩ := List.length_eq_four.1 hlength
    rw [hdigits] at hvalue ⊢
    simp [passQuoted, hvalue]
  · simp [passQuoted, hslash, hcontrol]

theorem passQuoted_quote (text rest : List Char) :
    passQuoted (text.flatMap escape ++ '"' :: rest) = .ok () rest := by
  induction text with
  | nil => rfl
  | cons c text ih => rw [List.flatMap_cons, List.append_assoc, passQuoted_escape, ih]

end Characters

section Values

variable {blanks : List Char}

/-- A text or null is passed over. -/
theorem skip_writeOption (h : Blanks blanks) (value : Option String) (rest : List Char) :
    skip (blanks ++ (writeOption value ++ rest)) = .ok () rest := by
  have hvalue : ∀ fuel, ∃ read,
      Reader.value true (fuel + 1) 0 (blanks ++ (writeOption value ++ rest)) = .ok read rest := by
    intro fuel
    rw [Reader.value]
    cases value with
    | none =>
      rw [bind_of_ok (peek_null h rest)]
      exact ⟨.null, bind_of_ok (expect_null rest)⟩
    | some text =>
      have hquoted : quoted true (text.toList.flatMap escape ++ '"' :: rest) = .ok "" rest :=
        bind_of_ok (passQuoted_quote text.toList rest)
      rw [bind_of_ok (peek_text h text rest), writeOption_some_append]
      exact ⟨.str "", (bind_of_ok (take_cons _ _)).trans (bind_of_ok hquoted)⟩
  obtain ⟨read, hread⟩ := hvalue (2 * (blanks ++ (writeOption value ++ rest)).length + 1)
  exact bind_of_ok hread

/-- A text is read, and null is none. -/
theorem yields_text (h : Blanks blanks) (value : Option String) (rest : List Char) :
    Yields (text (blanks ++ (writeOption value ++ rest))) rest value := by
  cases value with
  | none =>
    obtain ⟨fault, left, hother⟩ := @fails_otherShape String (writeOption none ++ rest)
    rw [text, bind_of_ok (peek_null h rest)]
    exact ⟨fault, left, hother⟩
  | some value =>
    show text _ = _
    rw [text, bind_of_ok (peek_text h value rest), writeOption_some_append]
    exact (bind_of_ok (take_cons _ _)).trans (quoted_escape value rest)

theorem yields_optionOf_text (h : Blanks blanks) (value : Option String) (rest : List Char) :
    Yields (optionOf text (blanks ++ (writeOption value ++ rest))) rest (some value) := by
  rw [optionOf]
  cases value with
  | none =>
    rw [bind_of_ok (peek_null h rest)]
    exact bind_of_ok (expect_null rest)
  | some value =>
    rw [bind_of_ok (peek_text h value rest)]
    exact (yields_text blanks_nil (some value) rest).map some

theorem yields_txHash (h : Blanks blanks) (value : Option String) (rest : List Char) :
    Yields (txHash (blanks ++ (writeOption value ++ rest))) rest (value.bind TxHash.parse?) := by
  rw [txHash]
  cases value with
  | none =>
    obtain ⟨fault, left, hnull⟩ := yields_text blanks_nil none rest
    rw [bind_of_ok (peek_null h rest)]
    exact ⟨fault, left, bind_of_error hnull⟩
  | some value =>
    rw [bind_of_ok (peek_text h value rest)]
    refine (yields_text blanks_nil (some value) rest).bind fun text => ?_
    cases TxHash.parse? text with
    | none => exact fails_shape rest
    | some hash => rfl

end Values

end Reader

end DonationFlow.Json
