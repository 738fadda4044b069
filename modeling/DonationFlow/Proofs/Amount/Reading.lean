import DonationFlow.Amount
import DonationFlow.Proofs.Text.Blank
import DonationFlow.Proofs.Text.Decimal

/-!
# Reading an amount

An amount is typed as digits with at most one point among them.  `Denotes` says which
integer such a text writes, with no bound on what is computed on the way; every other
text counts as zero.  Main statement: `toUnits_exact_on_its_grammar`.
-/

namespace DonationFlow.Amount

open DonationFlow.Text

variable {text core whole fraction digits : List Char} {decimals units : Nat} {word : Word}

/-- The text is a decimal number with these digits before and after its point.  The
digits of one side may be missing, and without digits after it the point too. -/
structure Shows (text whole fraction : List Char) : Prop where
  form : text = whole ++ '.' :: fraction ∨ text = whole ∧ fraction = []
  whole_digits : IsDigits whole
  fraction_digits : IsDigits fraction
  digits_ne_nil : whole ++ fraction ≠ []

/-- The text shows the digits between the blanks at its ends. -/
def Reads (text whole fraction : List Char) : Prop :=
  ∃ core, Padded text core ∧ Shows core whole fraction

/-- The integer that the digits write when zeros fill the places of the token. -/
def smallestUnits (whole fraction : List Char) (decimals : Nat) : Nat :=
  decimalValue (whole ++ fraction ++ List.replicate (decimals - fraction.length) '0')

/-- The text writes `units` smallest units of a token with so many decimals, and a
word can hold them. -/
def Denotes (text : List Char) (decimals units : Nat) : Prop :=
  ∃ whole fraction, Reads text whole fraction ∧ fraction.length ≤ decimals ∧
    smallestUnits whole fraction decimals = units ∧ units < wordLimit

/-! ## The digits of a text -/

theorem Shows.isDigits (h : Shows text whole fraction) : IsDigits (whole ++ fraction) :=
  isDigits_append.2 ⟨h.whole_digits, h.fraction_digits⟩

theorem point_not_mem (h : IsDigits digits) : '.' ∉ digits :=
  fun hmem => Bool.false_ne_true (h '.' hmem)

/-- A text is cut at its point into what it shows. -/
theorem Shows.cut_eq (h : Shows text whole fraction) :
    (cut? '.' text).getD (text, []) = (whole, fraction) := by
  obtain rfl | ⟨rfl, rfl⟩ := h.form
  · rw [cut?_eq_some_iff.2 ⟨rfl, point_not_mem h.whole_digits⟩]
    rfl
  · rw [cut?_eq_none_iff.2 (point_not_mem h.whole_digits)]
    rfl

theorem form_of_cut (hcut : (cut? '.' text).getD (text, []) = (whole, fraction)) :
    text = whole ++ '.' :: fraction ∨ text = whole ∧ fraction = [] := by
  cases hfound : cut? '.' text with
  | none =>
    rw [hfound] at hcut
    obtain ⟨rfl, rfl⟩ := Prod.mk.inj hcut
    exact Or.inr ⟨rfl, rfl⟩
  | some parts =>
    rw [hfound] at hcut
    obtain rfl : parts = (whole, fraction) := hcut
    exact Or.inl (cut?_eq_some_iff.1 hfound).1

theorem isBlank_of_isDigit {c : Char} (h : c.isDigit = true) : isBlank c = false := by
  have := isDigit_iff.1 h
  simp only [isBlank, Bool.or_eq_false_iff, Bool.and_eq_false_iff, decide_eq_false_iff_not,
    beq_eq_false_iff_ne]
  omega

/-- A decimal number has no blank in it. -/
theorem Shows.isBlank_eq_false (h : Shows text whole fraction) :
    ∀ c ∈ text, isBlank c = false := by
  have hdigit : ∀ c ∈ whole ++ fraction, isBlank c = false :=
    fun c hc => isBlank_of_isDigit (h.isDigits c hc)
  intro c hc
  obtain rfl | ⟨rfl, -⟩ := h.form
  · rcases List.mem_append.1 hc with hc | hc
    · exact hdigit c (List.mem_append.2 (Or.inl hc))
    · rcases List.mem_cons.1 hc with rfl | hc
      · decide
      · exact hdigit c (List.mem_append.2 (Or.inr hc))
  · exact hdigit c (List.mem_append.2 (Or.inl hc))

/-- What a text shows between its blanks is what its trimmed form shows. -/
theorem reads_iff : Reads text whole fraction ↔ Shows (trim text) whole fraction := by
  constructor
  · rintro ⟨core, hpadded, hshows⟩
    have hbare := hshows.isBlank_eq_false
    rw [trim_eq_of_padded hpadded]
    · exact hshows
    · exact fun c hc => hbare c (List.mem_of_mem_head? hc)
    · exact fun c hc => hbare c (List.mem_of_mem_getLast? hc)
  · exact fun h => ⟨trim text, padded_trim text, h⟩

theorem Shows.reads (h : Shows text whole fraction) : Reads text whole fraction :=
  ⟨text, Padded.refl text, h⟩

theorem Reads.unique {whole' fraction' : List Char} (h : Reads text whole fraction)
    (h' : Reads text whole' fraction') : whole = whole' ∧ fraction = fraction' :=
  Prod.mk.inj ((reads_iff.1 h).cut_eq.symm.trans (reads_iff.1 h').cut_eq)

theorem Denotes.unique {other : Nat} (h : Denotes text decimals units)
    (hother : Denotes text decimals other) : units = other := by
  obtain ⟨whole, fraction, hreads, -, rfl, -⟩ := h
  obtain ⟨whole', fraction', hreads', -, rfl, -⟩ := hother
  obtain ⟨rfl, rfl⟩ := hreads.unique hreads'
  rfl

/-! ## The computation -/

/-- One digit more: the value so far is scaled by ten and the digit added. -/
theorem word?_concat_eq_some_iff {c : Char} : word? (digits ++ [c]) = some word ↔
    ∃ before, word? digits = some before ∧ c.isDigit = true ∧
      word.toNat = 10 * before.toNat + (c.toNat - 48) := by
  have hten : ten.toNat = 10 := rfl
  have hsmall : ∀ {digit}, digit? 10 c = some digit → (Word.wrap digit).toNat = digit := by
    intro digit hdigit
    obtain ⟨hc, rfl⟩ := digit?_ten_eq_some_iff.1 hdigit
    have := isDigit_iff.1 hc
    exact Nat.mod_eq_of_lt (Nat.lt_of_le_of_lt (by omega : c.toNat - 48 ≤ 10) (by decide))
  simp only [word?, List.foldlM_append, List.foldlM_cons, List.foldlM_nil, bind_pure,
    Option.bind_eq_bind, Option.bind_eq_some_iff]
  constructor
  · rintro ⟨before, hbefore, digit, hdigit, scaled, hscaled, hsum⟩
    rw [Word.mul?_eq_some_iff, hten] at hscaled
    rw [Word.add?_eq_some_iff, hsmall hdigit] at hsum
    obtain ⟨hc, rfl⟩ := digit?_ten_eq_some_iff.1 hdigit
    exact ⟨before, hbefore, hc, by omega⟩
  · rintro ⟨before, hbefore, hc, hsum⟩
    have hdigit := digit?_ten_eq_some_iff.2 ⟨hc, rfl⟩
    have hrange : 10 * before.toNat < wordLimit := by
      have := word.toNat_lt
      omega
    refine ⟨before, hbefore, _, hdigit, ⟨_, hrange⟩, Word.mul?_eq_some_iff.2 ?_,
      Word.add?_eq_some_iff.2 ?_⟩
    · exact Nat.mul_comm 10 before.toNat
    · rw [hsmall hdigit, hsum]

/-- Digits are gathered into a word exactly if they write one: what is gathered on the
way never exceeds it. -/
theorem word?_eq_some_iff :
    word? digits = some word ↔ IsDigits digits ∧ word.toNat = decimalValue digits := by
  induction digits using List.reverseRecOn generalizing word with
  | nil =>
    simp only [word?, List.foldlM_nil, pure, Option.some.injEq, Word.ext_iff, decimalValue_nil]
    exact ⟨fun h => ⟨by simp [IsDigits], h.symm⟩, fun h => h.2.symm⟩
  | append_singleton digits c ih =>
    have hlast : IsDigits [c] ↔ c.isDigit = true := by simp [IsDigits]
    rw [word?_concat_eq_some_iff, isDigits_append, hlast, decimalValue_concat]
    constructor
    · rintro ⟨before, hbefore, hc, hsum⟩
      obtain ⟨hdigits, hvalue⟩ := ih.1 hbefore
      exact ⟨⟨hdigits, hc⟩, by rw [hsum, hvalue]⟩
    · rintro ⟨⟨hdigits, hc⟩, hsum⟩
      have hrange : decimalValue digits < wordLimit := by
        have := word.toNat_lt
        omega
      exact ⟨⟨_, hrange⟩, ih.2 ⟨hdigits, rfl⟩, hc, hsum⟩

theorem smallestUnits_eq (whole fraction : List Char) (decimals : Nat) :
    smallestUnits whole fraction decimals =
      decimalValue (whole ++ fraction) * 10 ^ (decimals - fraction.length) :=
  decimalValue_append_zeros _ _

/-- The parts of a text are gathered into a word, which is scaled to the token's unit. -/
theorem units?_of_cut (hcut : (cut? '.' text).getD (text, []) = (whole, fraction)) :
    units? text decimals = some word ↔ whole ++ fraction ≠ [] ∧ fraction.length ≤ decimals ∧
      ∃ value scale : Word, word? (whole ++ fraction) = some value ∧
        scale.toNat = 10 ^ (decimals - fraction.length) ∧
        word.toNat = value.toNat * scale.toNat := by
  rw [units?, hcut]
  dsimp only
  split_ifs with hempty hplaces
  · simp_all
  · simp only [false_iff]
    omega
  · simp only [Option.bind_eq_bind, Option.bind_eq_some_iff, Word.ofNat?_eq_some_iff,
      Word.mul?_eq_some_iff]
    constructor
    · rintro ⟨value, hvalue, scale, hscale, hproduct⟩
      exact ⟨by simpa using hempty, by omega, value, scale, hvalue, hscale, hproduct⟩
    · rintro ⟨-, -, value, scale, hvalue, hscale, hproduct⟩
      exact ⟨value, hvalue, scale, hscale, hproduct⟩

/-- A text is read as a word exactly if it shows one and the power of ten that fills
its places is in range itself. -/
theorem units?_eq_some_iff : units? text decimals = some word ↔
    ∃ whole fraction, Shows text whole fraction ∧ fraction.length ≤ decimals ∧
      10 ^ (decimals - fraction.length) < wordLimit ∧
      smallestUnits whole fraction decimals = word.toNat := by
  obtain ⟨whole, fraction, hcut⟩ :
      ∃ whole fraction, (cut? '.' text).getD (text, []) = (whole, fraction) := ⟨_, _, rfl⟩
  rw [units?_of_cut hcut]
  constructor
  · rintro ⟨hne, hplaces, value, scale, hvalue, hscale, hproduct⟩
    obtain ⟨hdigits, hvalue⟩ := word?_eq_some_iff.1 hvalue
    obtain ⟨hwhole, hfraction⟩ := isDigits_append.1 hdigits
    refine ⟨whole, fraction, ⟨form_of_cut hcut, hwhole, hfraction, hne⟩, hplaces, ?_, ?_⟩
    · exact hscale ▸ scale.toNat_lt
    · rw [smallestUnits_eq, hproduct, hvalue, hscale]
  · rintro ⟨whole', fraction', hshows, hplaces, hscale, hvalue⟩
    obtain ⟨rfl, rfl⟩ := Prod.mk.inj (hcut.symm.trans hshows.cut_eq)
    rw [smallestUnits_eq] at hvalue
    have hrange : decimalValue (whole ++ fraction) < wordLimit := by
      refine Nat.lt_of_le_of_lt ?_ word.toNat_lt
      rw [← hvalue]
      exact Nat.le_mul_of_pos_right _ (Nat.pow_pos (by omega))
    exact ⟨hshows.digits_ne_nil, hplaces, ⟨_, hrange⟩, ⟨_, hscale⟩,
      word?_eq_some_iff.2 ⟨hshows.isDigits, rfl⟩, rfl, hvalue.symm⟩

theorem denotes_of_units? (h : units? (trim text) decimals = some word) :
    Denotes text decimals word.toNat := by
  obtain ⟨whole, fraction, hshows, hplaces, -, hvalue⟩ := units?_eq_some_iff.1 h
  exact ⟨whole, fraction, reads_iff.2 hshows, hplaces, hvalue, word.toNat_lt⟩

/-- Nothing that is computed on the way leaves the range before the amount does, unless
the amount is zero: then the power of ten may. -/
theorem exists_units?_of_denotes (h : Denotes text decimals units) (hpositive : 0 < units) :
    ∃ word, units? (trim text) decimals = some word := by
  obtain ⟨whole, fraction, hreads, hplaces, hvalue, hrange⟩ := h
  have hscale : 10 ^ (decimals - fraction.length) ≤ units := by
    rw [← hvalue, smallestUnits_eq] at hpositive ⊢
    exact Nat.le_mul_of_pos_left _ (Nat.pos_of_mul_pos_right hpositive)
  exact ⟨⟨units, hrange⟩, units?_eq_some_iff.2
    ⟨whole, fraction, reads_iff.1 hreads, hplaces, Nat.lt_of_le_of_lt hscale hrange, hvalue⟩⟩

theorem toNat_toUnits_of_denotes {text : String} {decimals : UInt8}
    (h : Denotes text.toList decimals.toNat units) : (toUnits text decimals).toNat = units := by
  rw [toUnits]
  cases hread : units? (trim text.toList) decimals.toNat with
  | some word => exact (denotes_of_units? hread).unique h
  | none =>
    rcases Nat.eq_zero_or_pos units with rfl | hpositive
    · rfl
    · obtain ⟨word, hword⟩ := exists_units?_of_denotes h hpositive
      cases hread.symm.trans hword

/-- A text that writes an integer of smallest units is read as that integer, and any
other text as zero.  A text writes one if between blanks it is digits, or digits around
one point, no more of them after it than the token has decimals, and the digits filled
up with zeros write a number that a word can hold. -/
theorem toUnits_exact_on_its_grammar (text : String) (decimals : UInt8) :
    (∀ units, Denotes text.toList decimals.toNat units →
      (toUnits text decimals).toNat = units) ∧
    ((∀ units, ¬Denotes text.toList decimals.toNat units) →
      toUnits text decimals = Word.zero) := by
  refine ⟨fun units => toNat_toUnits_of_denotes, fun hnone => ?_⟩
  rw [toUnits]
  cases hread : units? (trim text.toList) decimals.toNat with
  | some word => exact absurd (denotes_of_units? hread) (hnone word.toNat)
  | none => rfl

/-- A quarter is read although it has no whole digit, is set in blanks of two kinds and
fills seventy-five places with zeros; a second point makes the text worth nothing. -/
theorem toUnits_exact_on_its_grammar_of_quarter :
    let quarter := "\u2003.25\t"
    let versions := "1.2.3"
    (Denotes quarter.toList 77 (25 * 10 ^ 75) ∧ (toUnits quarter 77).toNat = 25 * 10 ^ 75) ∧
    (∀ units, ¬Denotes versions.toList 6 units) ∧ toUnits versions 6 = Word.zero := by
  intro quarter versions
  have hquarter : Denotes quarter.toList 77 (25 * 10 ^ 75) := by
    have hshows : Shows ['.', '2', '5'] [] ['2', '5'] :=
      ⟨Or.inl rfl, by simp [IsDigits], by simp [IsDigits], by simp⟩
    have hpadded : Padded quarter.toList ['.', '2', '5'] :=
      ⟨['\u2003'], ['\t'], by simp [isBlank], by simp [isBlank], by decide +kernel⟩
    exact ⟨[], ['2', '5'], ⟨_, hpadded, hshows⟩, by decide, by decide +kernel, by decide +kernel⟩
  have hversions : ∀ units, ¬Denotes versions.toList 6 units := by
    rintro units ⟨whole, fraction, hreads, -⟩
    have hshows := reads_iff.1 hreads
    have hcut : (cut? '.' (trim versions.toList)).getD (trim versions.toList, []) =
        (['1'], ['2', '.', '3']) := by decide +kernel
    obtain ⟨-, rfl⟩ := Prod.mk.inj (hcut.symm.trans hshows.cut_eq)
    exact point_not_mem hshows.fraction_digits (by simp)
  exact ⟨⟨hquarter, (toUnits_exact_on_its_grammar quarter 77).1 _ hquarter⟩, hversions,
    (toUnits_exact_on_its_grammar versions 6).2 hversions⟩

end DonationFlow.Amount
