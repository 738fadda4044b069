import DonationFlow.Proofs.Table
import DonationFlow.Proofs.Text.Letter
import DonationFlow.Rates
import Mathlib.Algebra.GroupWithZero.Divisibility
import Mathlib.Algebra.Ring.Nat
import Mathlib.Data.List.Induction

/-!
# The estimate in the settlement currency

Rates are looked up by symbol in whatever case, and the last one registered counts.
The scale is a power of ten in word arithmetic: it wraps beyond seventy-seven places
but never becomes zero, since two divides a power of ten no more often than its
exponent.  Main statement: `estimate_total_and_exact`.
-/

namespace DonationFlow

variable {symbol : String} {entries : List (String × String)} {token : Token}
  {amount rate : Word}

/-- A power of ten is divided by two as often as its exponent says. -/
theorem two_pow_dvd_ten_pow_iff {k d : Nat} : 2 ^ k ∣ 10 ^ d ↔ k ≤ d := by
  constructor
  · intro h
    have hsplit : 10 ^ d = 2 ^ d * 5 ^ d := by rw [← Nat.mul_pow]
    have hcoprime : (2 ^ k).Coprime (5 ^ d) := Nat.Coprime.pow k d (by decide)
    rw [hsplit] at h
    exact (Nat.pow_dvd_pow_iff_le_right (by decide)).1 (hcoprime.dvd_of_dvd_mul_right h)
  · intro h
    exact (pow_dvd_pow 2 h).trans (pow_dvd_pow_of_dvd (by decide) d)

namespace Rates

/-- The divisor for a token with that many decimals. -/
def scale (decimals : UInt8) : Word := Word.wrap (Nat.pow 10 decimals.toNat)

theorem toNat_scale_ne_zero (decimals : UInt8) : (scale decimals).toNat ≠ 0 := by
  intro hzero
  have hdvd : 2 ^ 256 ∣ 10 ^ decimals.toNat := Nat.dvd_of_mod_eq_zero hzero
  have hlt := decimals.toNat_lt
  have := two_pow_dvd_ten_pow_iff.1 hdvd
  omega

theorem toNat_scale {decimals : UInt8} (h : decimals.toNat ≤ 77) :
    (scale decimals).toNat = 10 ^ decimals.toNat := by
  refine Nat.mod_eq_of_lt ?_
  calc 10 ^ decimals.toNat ≤ 10 ^ 77 := Nat.pow_le_pow_right (by decide) h
    _ < 2 ^ 256 := by decide

/-! ## The rate that counts -/

/-- The text is the last that was registered for the symbol, in whatever case. -/
def IsLast (entries : List (String × String)) (symbol perUnit : String) : Prop :=
  ∃ before name after, entries = before ++ (name, perUnit) :: after ∧
    Text.SameUpToCase name symbol ∧ ∀ later ∈ after, ¬Text.SameUpToCase later.1 symbol

theorem rate?_withRate (rates : Rates) (name perUnit symbol : String) :
    (rates.withRate name perUnit).rate? symbol =
      if Text.sameLetters name symbol then
        some (Amount.toUnits perUnit Amount.settlementDecimals)
      else rates.rate? symbol := by
  rw [rate?, withRate, Table.get?_put]
  by_cases h : Text.sameLetters name symbol = true
  · rw [if_pos (Text.sameLetters_iff.1 h).symm, if_pos h]
  · rw [if_neg fun heq => h (Text.sameLetters_iff.2 heq.symm), if_neg h]
    rfl

theorem ofList_snoc (entries : List (String × String)) (name perUnit : String) :
    ofList (entries ++ [(name, perUnit)]) = (ofList entries).withRate name perUnit := by
  rw [ofList, List.foldl_append]
  rfl

/-- The registrations are searched from the last one backwards. -/
theorem rate?_ofList (entries : List (String × String)) (symbol : String) :
    (ofList entries).rate? symbol =
      (entries.reverse.find? fun entry => Text.sameLetters entry.1 symbol).map
        fun entry => Amount.toUnits entry.2 Amount.settlementDecimals := by
  induction entries using List.reverseRecOn with
  | nil => rfl
  | append_singleton entries entry ih =>
    obtain ⟨name, perUnit⟩ := entry
    rw [ofList_snoc, rate?_withRate, List.reverse_append, List.reverse_singleton,
      List.singleton_append, List.find?_cons, ih]
    cases Text.sameLetters name symbol <;> rfl

theorem rate?_ofList_eq_none_iff :
    (ofList entries).rate? symbol = none ↔
      ∀ entry ∈ entries, ¬Text.SameUpToCase entry.1 symbol := by
  rw [rate?_ofList, Option.map_eq_none_iff, List.find?_eq_none]
  simp only [List.mem_reverse, Text.sameLetters_iff_sameUpToCase]

theorem rate?_ofList_eq_some_iff :
    (ofList entries).rate? symbol = some rate ↔
      ∃ entry, IsLastWith (Text.SameUpToCase ·.1 symbol) entries entry ∧
        Amount.toUnits entry.2 Amount.settlementDecimals = rate := by
  rw [rate?_ofList, Option.map_eq_some_iff]
  simp only [← isLastWith_iff_find?, Text.sameLetters_iff_sameUpToCase]

/-- A symbol without registration has no rate. -/
theorem rate?_eq_none (h : ∀ entry ∈ entries, ¬Text.SameUpToCase entry.1 symbol) :
    (ofList entries).rate? symbol = none :=
  rate?_ofList_eq_none_iff.2 h

/-- The last registration of a symbol counts. -/
theorem rate?_eq_some {perUnit : String} (h : IsLast entries symbol perUnit) :
    (ofList entries).rate? symbol =
      some (Amount.toUnits perUnit Amount.settlementDecimals) := by
  obtain ⟨before, name, after, hentries, hsame, hlast⟩ := h
  exact rate?_ofList_eq_some_iff.2 ⟨(name, perUnit), ⟨before, after, hentries, hsame, hlast⟩, rfl⟩

/-! ## The estimate -/

theorem estimate_of_rate?_eq_none {rates : Rates} (hother : token.isSettlementCurrency = false)
    (h : rates.rate? token.symbol = none) : rates.estimate token amount = Word.zero := by
  rw [estimate, hother, h]
  rfl

theorem estimate_of_rate?_eq_some {rates : Rates} (amount : Word)
    (hother : token.isSettlementCurrency = false) (h : rates.rate? token.symbol = some rate) :
    (wordLimit ≤ amount.toNat * rate.toNat → rates.estimate token amount = Word.zero) ∧
    (amount.toNat * rate.toNat < wordLimit → (rates.estimate token amount).toNat =
      amount.toNat * rate.toNat / (scale token.decimals).toNat) := by
  rw [estimate, hother, h]
  constructor
  · intro hlarge
    simp only [Word.mul?_eq_none_iff.2 hlarge, Bool.false_eq_true, if_false]
  · intro hsmall
    have hproduct : amount.mul? rate = some ⟨amount.toNat * rate.toNat, hsmall⟩ :=
      Word.mul?_eq_some_iff.2 rfl
    simp only [hproduct, Bool.false_eq_true, if_false]
    rfl

/-- With whatever rates were registered, the divisor is a power of ten up to
seventy-seven places and never zero.  The settlement currency is worth itself.  Any
other token is worth nothing without a rate, or if the product with the rate
registered last leaves the range; else it is worth that product over the divisor,
rounded down. -/
theorem estimate_total_and_exact (entries : List (String × String)) (token : Token)
    (amount : Word) :
    let estimate := (ofList entries).estimate token amount
    let divisor := (scale token.decimals).toNat
    divisor = 10 ^ token.decimals.toNat % 2 ^ 256 ∧ divisor ≠ 0 ∧
    (token.isSettlementCurrency = true → estimate = amount) ∧
    (token.isSettlementCurrency = false →
      ((∀ entry ∈ entries, ¬Text.SameUpToCase entry.1 token.symbol) → estimate = Word.zero) ∧
      ∀ perUnit, IsLast entries token.symbol perUnit →
        let worth := amount.toNat *
          (Amount.toUnits perUnit Amount.settlementDecimals).toNat
        (2 ^ 256 ≤ worth → estimate = Word.zero) ∧
        (worth < 2 ^ 256 → estimate.toNat = worth / divisor) ∧
        (worth < 2 ^ 256 → token.decimals.toNat ≤ 77 →
          estimate.toNat = worth / 10 ^ token.decimals.toNat)) := by
  intro estimate divisor
  refine ⟨rfl, toNat_scale_ne_zero token.decimals, ?_, ?_⟩
  · intro hcurrency
    exact if_pos hcurrency
  · intro hother
    refine ⟨fun hnone => estimate_of_rate?_eq_none hother (rate?_eq_none hnone), ?_⟩
    intro perUnit hlast worth
    obtain ⟨hlarge, hsmall⟩ := estimate_of_rate?_eq_some amount hother (rate?_eq_some hlast)
    refine ⟨hlarge, hsmall, ?_⟩
    intro hrange hplaces
    rw [← toNat_scale hplaces]
    exact hsmall hrange

/-- Of two rates of one symbol the later one counts, though it is spelled in another
case: it values half a unit, and the greatest amount leaves the range. -/
theorem estimate_total_and_exact_of_respelled :
    let entries := [("ETH", "1"), ("dai", "2"), ("eth", "3000"), ("WETH", "5")]
    let ether := Token.native "ETH"
    let half : Word := Word.wrap (5 * 10 ^ 17)
    IsLast entries ether.symbol "3000" ∧
      ((ofList entries).estimate ether half).toNat = 1500000000 ∧
      (ofList entries).estimate ether Word.top = Word.zero ∧
      (ofList entries).estimate (Token.native "POL") half = Word.zero := by
  intro entries ether half
  have hlast : IsLast entries ether.symbol "3000" := by
    refine ⟨[("ETH", "1"), ("dai", "2")], "eth", [("WETH", "5")], rfl, ?_, ?_⟩
    · exact Text.sameLetters_iff_sameUpToCase.1 (by decide)
    · simp only [List.forall_mem_singleton, ← Text.sameLetters_iff_sameUpToCase]
      decide
  have hrate : (Amount.toUnits "3000" Amount.settlementDecimals).toNat = 3000000000 := by
    decide +kernel
  have hnone : ∀ entry ∈ entries, ¬Text.SameUpToCase entry.1 (Token.native "POL").symbol := by
    simp only [← Text.sameLetters_iff_sameUpToCase]
    decide
  obtain ⟨-, -, -, hether⟩ := estimate_total_and_exact entries ether half
  obtain ⟨-, -, hexact⟩ := (hether rfl).2 "3000" hlast
  obtain ⟨-, -, -, htop⟩ := estimate_total_and_exact entries ether Word.top
  obtain ⟨hlarge, -⟩ := (htop rfl).2 "3000" hlast
  obtain ⟨-, -, -, hpol⟩ := estimate_total_and_exact entries (Token.native "POL") half
  rw [hrate] at hexact hlarge
  refine ⟨hlast, ?_, hlarge (by decide), (hpol rfl).1 hnone⟩
  rw [hexact (by decide) (by decide)]
  decide

end Rates

end DonationFlow
