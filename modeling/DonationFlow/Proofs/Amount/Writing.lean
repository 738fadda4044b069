import DonationFlow.Proofs.Amount.Reading
import Mathlib.Data.Rat.Cast.Order
import Mathlib.Tactic.FieldSimp

/-!
# Writing an amount

An amount is written as the one canonical text of its number of whole tokens: no zero
that could be left out, and no point without digits after it.  It reads back as itself,
so writing what was read brings a text into its normal form.  Main statement:
`format_inverts_toUnits`.
-/

namespace DonationFlow.Amount

open DonationFlow.Text

variable {text other whole fraction whole' fraction' : List Char} {decimals units : Nat}
  {amount : Word}

/-- The text shows its number without anything superfluous. -/
structure Canonical (text whole fraction : List Char) : Prop
    extends Shows text whole fraction where
  whole_ne_nil : whole ≠ []
  no_leading_zero : whole.head? = some '0' → whole = ['0']
  no_trailing_zero : fraction.getLast? ≠ some '0'
  no_trailing_point : text.getLast? ≠ some '.'

def IsCanonical (text : List Char) : Prop :=
  ∃ whole fraction, Canonical text whole fraction

/-- The number of whole tokens that the digits write. -/
def rational (whole fraction : List Char) : ℚ :=
  decimalValue (whole ++ fraction) / 10 ^ fraction.length

/-- The text is read as a decimal number of value `value`. -/
def Means (text : List Char) (value : ℚ) : Prop :=
  ∃ whole fraction, Reads text whole fraction ∧ rational whole fraction = value

/-! ## One canonical text for a number -/

theorem Canonical.text_eq (h : Canonical text whole fraction) :
    text = if fraction = [] then whole else whole ++ '.' :: fraction := by
  split
  · rename_i hnil
    subst hnil
    rcases h.form with htext | ⟨htext, -⟩
    · exact absurd (by rw [htext]; simp) h.no_trailing_point
    · exact htext
  · rename_i hne
    exact h.form.resolve_right fun hplain => hne hplain.2

/-- Numbers are compared as the digits with zeros filled in up to one point. -/
theorem rational_eq_iff : rational whole fraction = rational whole' fraction' ↔
    decimalValue (whole ++ fraction) * 10 ^ fraction'.length =
      decimalValue (whole' ++ fraction') * 10 ^ fraction.length := by
  have hscale : ∀ places : Nat, (10 : ℚ) ^ places ≠ 0 :=
    fun places => pow_ne_zero places (by norm_num)
  rw [rational, rational, div_eq_div_iff (hscale _) (hscale _)]
  exact_mod_cast Iff.rfl

theorem Canonical.eq_of_rational_eq (h : Canonical text whole fraction)
    (hother : Canonical other whole' fraction')
    (hvalue : rational whole fraction = rational whole' fraction') : text = other := by
  -- With zeros around them the digits are of one length and write one number.
  have hfilled : (List.replicate whole'.length '0' ++ whole) ++
        (fraction ++ List.replicate fraction'.length '0') =
      (List.replicate whole.length '0' ++ whole') ++
        (fraction' ++ List.replicate fraction.length '0') := by
    have hvalue := rational_eq_iff.1 hvalue
    refine (decimalValue_inj ?_ ?_ ?_).1 ?_
    · simp only [isDigits_append]
      exact ⟨⟨isDigits_zeros _, h.whole_digits⟩, h.fraction_digits, isDigits_zeros _⟩
    · simp only [isDigits_append]
      exact ⟨⟨isDigits_zeros _, hother.whole_digits⟩, hother.fraction_digits, isDigits_zeros _⟩
    · simp only [List.length_append, List.length_replicate]
      omega
    · rw [List.append_assoc, List.append_assoc, decimalValue_zeros_append,
        decimalValue_zeros_append, ← List.append_assoc, ← List.append_assoc,
        decimalValue_append_zeros, decimalValue_append_zeros, hvalue]
  obtain ⟨hwhole, hfraction⟩ := List.append_inj' hfilled (by simp [Nat.add_comm])
  obtain rfl : whole = whole' := eq_of_zeros_append hwhole h.whole_ne_nil hother.whole_ne_nil
    h.no_leading_zero hother.no_leading_zero
  obtain rfl : fraction = fraction' :=
    eq_of_append_zeros hfraction h.no_trailing_zero hother.no_trailing_zero
  rw [h.text_eq, hother.text_eq]

/-- An amount read with `decimals` places is so many units of ten to the minus
`decimals`. -/
theorem means_of_denotes (h : Denotes text decimals units) :
    Means text ((units : ℚ) / 10 ^ decimals) := by
  obtain ⟨whole, fraction, hreads, hplaces, hvalue, -⟩ := h
  refine ⟨whole, fraction, hreads, ?_⟩
  obtain ⟨filled, rfl⟩ := Nat.exists_eq_add_of_le hplaces
  rw [smallestUnits_eq, Nat.add_sub_cancel_left] at hvalue
  rw [rational, ← hvalue]
  push_cast
  rw [pow_add]
  field_simp

theorem eq_of_means {value : ℚ} (h : IsCanonical text) (hother : IsCanonical other)
    (hvalue : Means text value) (hotherValue : Means other value) : text = other := by
  obtain ⟨whole, fraction, hcanonical⟩ := h
  obtain ⟨whole', fraction', hcanonical'⟩ := hother
  obtain ⟨_, _, hreads, hvalue⟩ := hvalue
  obtain ⟨_, _, hreads', hvalue'⟩ := hotherValue
  obtain ⟨rfl, rfl⟩ := hcanonical.toShows.reads.unique hreads
  obtain ⟨rfl, rfl⟩ := hcanonical'.toShows.reads.unique hreads'
  exact hcanonical.eq_of_rational_eq hcanonical' (hvalue.trans hvalue'.symm)

/-! ## The written text -/

/-- The digits of the amount, filled up with zeros to have one before the point. -/
def filledDigits (amount : Word) (decimals : Nat) : List Char :=
  let digits := numeral 10 amount.toNat
  List.replicate (decimals + 1 - digits.length) '0' ++ digits

/-- Where the point stands in the filled digits. -/
def pointAt (amount : Word) (decimals : Nat) : Nat :=
  (filledDigits amount decimals).length - decimals

def wholeDigits (amount : Word) (decimals : Nat) : List Char :=
  (filledDigits amount decimals).take (pointAt amount decimals)

def fractionDigits (amount : Word) (decimals : Nat) : List Char :=
  dropTrailingZeros ((filledDigits amount decimals).drop (pointAt amount decimals))

theorem dropTrailingZeros_eq (digits : List Char) :
    dropTrailingZeros digits = digits.rdropWhile (· = '0') := rfl

/-- What is dropped at the end of digits are zeros. -/
theorem dropTrailingZeros_append (digits : List Char) :
    dropTrailingZeros digits ++
      List.replicate (digits.length - (dropTrailingZeros digits).length) '0' = digits := by
  have hparts : dropTrailingZeros digits ++ digits.rtakeWhile (· = '0') = digits :=
    List.rdropWhile_append_rtakeWhile
  have hzeros : digits.rtakeWhile (· = '0') =
      List.replicate (digits.rtakeWhile (· = '0')).length '0' :=
    List.eq_replicate_iff.2 ⟨rfl, fun c hc => by simpa using List.mem_rtakeWhile_imp hc⟩
  have hlength := congrArg List.length hparts
  rw [List.length_append] at hlength
  have hcount : digits.length - (dropTrailingZeros digits).length =
      (digits.rtakeWhile (· = '0')).length := by omega
  rw [hcount, ← hzeros, hparts]

theorem getLast?_dropTrailingZeros (digits : List Char) :
    (dropTrailingZeros digits).getLast? ≠ some '0' := by
  intro hlast
  have hne : digits.rdropWhile (· = '0') ≠ [] := by
    rintro hnil
    rw [dropTrailingZeros_eq, hnil] at hlast
    cases hlast
  have hkept := List.rdropWhile_last_not _ digits hne
  rw [dropTrailingZeros_eq, List.getLast?_eq_getLast_of_ne_nil hne, Option.some.injEq] at hlast
  exact hkept (decide_eq_true hlast)

theorem lt_length_filledDigits (amount : Word) (decimals : Nat) :
    decimals < (filledDigits amount decimals).length := by
  simp only [filledDigits, List.length_append, List.length_replicate]
  omega

theorem pointAt_pos (amount : Word) (decimals : Nat) : 0 < pointAt amount decimals :=
  Nat.sub_pos_of_lt (lt_length_filledDigits amount decimals)

theorem isDigits_filledDigits (amount : Word) (decimals : Nat) :
    IsDigits (filledDigits amount decimals) :=
  isDigits_append.2 ⟨isDigits_zeros _, isDigits_numeral _⟩

theorem decimalValue_filledDigits (amount : Word) (decimals : Nat) :
    decimalValue (filledDigits amount decimals) = amount.toNat := by
  rw [filledDigits, decimalValue_zeros_append, decimalValue_numeral]

theorem length_drop_pointAt (amount : Word) (decimals : Nat) :
    ((filledDigits amount decimals).drop (pointAt amount decimals)).length = decimals := by
  have := lt_length_filledDigits amount decimals
  rw [List.length_drop, pointAt]
  omega

theorem length_fractionDigits_le (amount : Word) (decimals : Nat) :
    (fractionDigits amount decimals).length ≤ decimals := by
  have hkept := (List.rdropWhile_prefix (· = '0')
    ((filledDigits amount decimals).drop (pointAt amount decimals))).length_le
  rwa [length_drop_pointAt] at hkept

/-- With the zeros that were dropped the two parts are the digits of the amount. -/
theorem wholeDigits_append (amount : Word) (decimals : Nat) :
    wholeDigits amount decimals ++ fractionDigits amount decimals ++
        List.replicate (decimals - (fractionDigits amount decimals).length) '0' =
      filledDigits amount decimals := by
  have hfraction := dropTrailingZeros_append
    ((filledDigits amount decimals).drop (pointAt amount decimals))
  rw [length_drop_pointAt] at hfraction
  rw [List.append_assoc, fractionDigits, hfraction, wholeDigits, List.take_append_drop]

/-- Digits that reach beyond the point need no zeros before them. -/
theorem filledDigits_of_lt (h : decimals < (numeral 10 amount.toNat).length) :
    filledDigits amount decimals = numeral 10 amount.toNat := by
  rw [filledDigits, Nat.sub_eq_zero_of_le h]
  rfl

/-- Also without decimals, where there is nothing to drop. -/
theorem digitsOf_eq (amount : Word) (decimals : Nat) : digitsOf amount decimals =
    if fractionDigits amount decimals = [] then wholeDigits amount decimals
    else wholeDigits amount decimals ++ '.' :: fractionDigits amount decimals := by
  have hparts : digitsOf amount decimals =
      if decimals = 0 then numeral 10 amount.toNat
      else if (fractionDigits amount decimals).isEmpty then wholeDigits amount decimals
      else wholeDigits amount decimals ++ '.' :: fractionDigits amount decimals := rfl
  rw [hparts]
  by_cases hzero : decimals = 0
  · subst hzero
    have hnil : fractionDigits amount 0 = [] :=
      List.eq_nil_of_length_eq_zero (Nat.le_zero.1 (length_fractionDigits_le amount 0))
    have hpositive : 0 < (numeral 10 amount.toNat).length :=
      List.length_pos_of_ne_nil (numeral_ne_nil 10 _)
    have hnumeral : filledDigits amount 0 = numeral 10 amount.toNat :=
      filledDigits_of_lt hpositive
    have hwhole := wholeDigits_append amount 0
    rw [hnil, hnumeral] at hwhole
    simpa [hnil] using hwhole.symm
  · simp only [if_neg hzero, List.isEmpty_iff]

/-- Digits that do not reach beyond the point leave a single zero as the whole. -/
theorem wholeDigits_of_le (h : (numeral 10 amount.toNat).length ≤ decimals) :
    wholeDigits amount decimals = ['0'] := by
  have hpoint : pointAt amount decimals = 1 := by
    simp only [pointAt, filledDigits, List.length_append, List.length_replicate]
    omega
  rw [wholeDigits, hpoint, filledDigits, Nat.succ_sub h]
  rfl

/-- The whole begins with a zero only if it is zero. -/
theorem wholeDigits_of_head? (h : (wholeDigits amount decimals).head? = some '0') :
    wholeDigits amount decimals = ['0'] := by
  rcases Nat.lt_or_ge decimals (numeral 10 amount.toNat).length with hlong | hshort
  · have hpoint := pointAt_pos amount decimals
    rw [wholeDigits, List.head?_take, if_neg (Nat.ne_of_gt hpoint),
      filledDigits_of_lt hlong] at h
    have hnumeral : numeral 10 amount.toNat = ['0'] := by
      rw [eq_zero_of_head?_numeral h, numeral_ten_eq, Nat.toDigits_zero]
    rw [wholeDigits, filledDigits_of_lt hlong, hnumeral, List.take_of_length_le hpoint]
  · exact wholeDigits_of_le hshort

theorem canonical_digitsOf (amount : Word) (decimals : Nat) :
    Canonical (digitsOf amount decimals) (wholeDigits amount decimals)
      (fractionDigits amount decimals) := by
  have hdigits := isDigits_filledDigits amount decimals
  rw [← wholeDigits_append, isDigits_append, isDigits_append] at hdigits
  obtain ⟨⟨hwhole, hfraction⟩, -⟩ := hdigits
  have hne : wholeDigits amount decimals ≠ [] := by
    rw [wholeDigits, ← List.length_pos_iff, List.length_take]
    have hpoint := pointAt_pos amount decimals
    have hlength := lt_length_filledDigits amount decimals
    omega
  have hform := digitsOf_eq amount decimals
  refine ⟨⟨?_, hwhole, hfraction, ?_⟩, hne, wholeDigits_of_head?,
    getLast?_dropTrailingZeros _, ?_⟩
  · split_ifs at hform with hnil
    · exact Or.inr ⟨hform, hnil⟩
    · exact Or.inl hform
  · simp [hne]
  · intro hlast
    have hmem : '.' ∈ wholeDigits amount decimals ∨ '.' ∈ fractionDigits amount decimals := by
      split_ifs at hform with hnil
      · rw [hform] at hlast
        exact Or.inl (List.mem_of_getLast? hlast)
      · rw [hform, List.getLast?_append_of_ne_nil _ (List.cons_ne_nil _ _),
          List.getLast?_cons_of_ne_nil hnil] at hlast
        exact Or.inr (List.mem_of_getLast? hlast)
    exact hmem.elim (point_not_mem hwhole) (point_not_mem hfraction)

theorem denotes_digitsOf (amount : Word) (decimals : Nat) :
    Denotes (digitsOf amount decimals) decimals amount.toNat := by
  refine ⟨_, _, (canonical_digitsOf amount decimals).toShows.reads,
    length_fractionDigits_le amount decimals, ?_, amount.toNat_lt⟩
  rw [smallestUnits, wholeDigits_append, decimalValue_filledDigits]

theorem toList_format (amount : Word) (decimals : UInt8) :
    (format amount decimals).toList = digitsOf amount decimals.toNat := by
  rw [format, String.toList_ofList]

theorem toUnits_format (amount : Word) (decimals : UInt8) :
    toUnits (format amount decimals) decimals = amount := by
  apply Word.ext
  apply toNat_toUnits_of_denotes
  rw [toList_format]
  exact denotes_digitsOf amount decimals.toNat

/-- What is written is the one canonical text of its number. -/
theorem eq_format_iff {other : String} {decimals : UInt8} : other = format amount decimals ↔
    IsCanonical other.toList ∧
      Means other.toList ((amount.toNat : ℚ) / 10 ^ decimals.toNat) := by
  have hcanonical : IsCanonical (format amount decimals).toList := by
    rw [toList_format]
    exact ⟨_, _, canonical_digitsOf amount decimals.toNat⟩
  have hmeans : Means (format amount decimals).toList
      ((amount.toNat : ℚ) / 10 ^ decimals.toNat) := by
    rw [toList_format]
    exact means_of_denotes (denotes_digitsOf amount decimals.toNat)
  constructor
  · rintro rfl
    exact ⟨hcanonical, hmeans⟩
  · rintro ⟨hother, hotherMeans⟩
    exact String.toList_inj.1 (eq_of_means hother hcanonical hotherMeans hmeans)

/-- A written amount reads back as itself, and is the canonical text of its number of
whole tokens.  A text that is read as an amount is of the same number, for which no
other canonical text exists; so writing what was read is a normal form, and doing it
again changes nothing. -/
theorem format_inverts_toUnits (decimals : UInt8) :
    (∀ amount : Word, toUnits (format amount decimals) decimals = amount ∧
      IsCanonical (format amount decimals).toList ∧
      Means (format amount decimals).toList ((amount.toNat : ℚ) / 10 ^ decimals.toNat)) ∧
    (∀ (text : String) (amount : Word),
      units? (trim text.toList) decimals.toNat = some amount →
        Denotes text.toList decimals.toNat amount.toNat) ∧
    (∀ (text : String) (amount : Word), Denotes text.toList decimals.toNat amount.toNat →
      toUnits text decimals = amount ∧
      Means text.toList ((amount.toNat : ℚ) / 10 ^ decimals.toNat) ∧
      ∀ other : String, other = format amount decimals ↔ IsCanonical other.toList ∧
        Means other.toList ((amount.toNat : ℚ) / 10 ^ decimals.toNat)) ∧
    ∀ text : String,
      let normal := fun text => format (toUnits text decimals) decimals
      normal (normal text) = normal text := by
  refine ⟨fun amount => ?_, fun text amount => denotes_of_units?, fun text amount hdenotes => ?_,
    fun text => ?_⟩
  · obtain ⟨hcanonical, hmeans⟩ := eq_format_iff.1 (rfl : format amount decimals = _)
    exact ⟨toUnits_format amount decimals, hcanonical, hmeans⟩
  · exact ⟨Word.ext (toNat_toUnits_of_denotes hdenotes), means_of_denotes hdenotes,
      fun other => eq_format_iff⟩
  · intro normal
    dsimp only [normal]
    rw [toUnits_format]

/-- Seven and a half, typed with blanks and zeros around it, is brought into the form
without them. -/
theorem format_inverts_toUnits_of_padded_text :
    let typed := " 007.50 "
    let amount : Word := ⟨750, by decide⟩
    units? (trim typed.toList) 2 = some amount ∧ Denotes typed.toList 2 amount.toNat ∧
      toUnits typed 2 = amount ∧ format amount 2 = "7.5" ∧ IsCanonical "7.5".toList ∧
      Means "7.5".toList (750 / 10 ^ 2) := by
  intro typed amount
  obtain ⟨-, haccepted, hdenoted, -⟩ := format_inverts_toUnits 2
  have hread : units? (trim typed.toList) 2 = some amount := by decide +kernel
  have hdenotes : Denotes typed.toList 2 amount.toNat := haccepted typed amount hread
  obtain ⟨hunits, -, hunique⟩ := hdenoted typed amount hdenotes
  have hformat : format amount 2 = "7.5" := by
    rw [format, digitsOf, numeral_ten_eq]
    decide +kernel
  obtain ⟨hcanonical, hmeans⟩ := (hunique "7.5").1 hformat.symm
  exact ⟨hread, hdenotes, hunits, hformat, hcanonical, hmeans⟩

end DonationFlow.Amount
