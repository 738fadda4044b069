import DonationFlow.Fees

/-!
# The split to the last unit

A share is computed in two parts so that no product is large; it is the exact share
rounded down.  Shares that fit into the whole never reach a bound, and what rounding
loses goes to the principal.  Main statement: `split_exact_and_conserving`.
-/

namespace DonationFlow

variable {x a b c : Nat} {amount : Word} {bps : UInt16} {fees : FeeSchedule}

/-- The share of the ten-thousandths and that of the remainder make up the share. -/
theorem parts_eq_share (x bps : Nat) :
    x / wholeBps * bps + x % wholeBps * bps / wholeBps = x * bps / wholeBps := by
  calc x / wholeBps * bps + x % wholeBps * bps / wholeBps
      = (x % wholeBps * bps + wholeBps * (x / wholeBps * bps)) / wholeBps := by
        rw [Nat.add_mul_div_left _ _ (by decide), Nat.add_comm]
    _ = (wholeBps * (x / wholeBps) + x % wholeBps) * bps / wholeBps := by
        rw [Nat.add_mul, Nat.mul_assoc, Nat.add_comm]
    _ = x * bps / wholeBps := by rw [Nat.div_add_mod]

/-- A bound that cuts off the first part cuts off the sum as well. -/
theorem min_min_add (part rest bound : Nat) :
    min (min part bound + rest) bound = min (part + rest) bound := by
  omega

theorem toNat_bpsShare (amount : Word) (bps : UInt16) :
    (bpsShare amount bps).toNat =
      min (amount.toNat * bps.toNat / wholeBps) (wordLimit - 1) := by
  rw [← parts_eq_share, ← min_min_add]
  rfl

theorem share_le (hbps : a ≤ wholeBps) : x * a / wholeBps ≤ x :=
  Nat.div_le_of_le_mul (Nat.mul_comm wholeBps x ▸ Nat.mul_le_mul_left x hbps)

/-- Neither part of such a share leaves the range, nor does their sum. -/
theorem parts_lt_wordLimit (hbps : a ≤ wholeBps) :
    amount.toNat / wholeBps * a < wordLimit ∧
      amount.toNat / wholeBps * a + amount.toNat % wholeBps * a / wholeBps < wordLimit := by
  have hsum : amount.toNat / wholeBps * a + amount.toNat % wholeBps * a / wholeBps < wordLimit := by
    rw [parts_eq_share]
    exact Nat.lt_of_le_of_lt (share_le hbps) amount.toNat_lt
  exact ⟨Nat.lt_of_le_of_lt (Nat.le_add_right _ _) hsum, hsum⟩

theorem toNat_bpsShare_of_le (hbps : bps.toNat ≤ wholeBps) :
    (bpsShare amount bps).toNat = amount.toNat * bps.toNat / wholeBps := by
  have hshare : amount.toNat * bps.toNat / wholeBps ≤ amount.toNat := share_le hbps
  have := amount.toNat_lt
  rw [toNat_bpsShare]
  omega

/-- Three shares that make up the whole lose at most two units by rounding. -/
theorem shares_within_two (hwhole : a + b + c = wholeBps) :
    x * a / wholeBps + x * b / wholeBps + x * c / wholeBps ≤ x ∧
      x ≤ x * a / wholeBps + x * b / wholeBps + x * c / wholeBps + 2 := by
  have hsum : x * a + x * b + x * c = x * wholeBps := by
    rw [← Nat.mul_add, ← Nat.mul_add, hwhole]
  unfold wholeBps at hsum ⊢
  omega

namespace FeeSchedule

/-- The basis points that are left for the principal. -/
def principalBps (fees : FeeSchedule) : Nat :=
  wholeBps - fees.causeBps.toNat - fees.platformFeeBps.toNat

theorem IsValid.causeBps_le (h : fees.IsValid) : fees.causeBps.toNat ≤ wholeBps :=
  Nat.le_trans (Nat.le_add_right _ _) h

theorem IsValid.platformFeeBps_le (h : fees.IsValid) : fees.platformFeeBps.toNat ≤ wholeBps :=
  Nat.le_trans (Nat.le_add_left _ _) h

theorem IsValid.sum_eq (h : fees.IsValid) :
    fees.causeBps.toNat + fees.platformFeeBps.toNat + fees.principalBps = wholeBps := by
  unfold IsValid at h
  unfold principalBps
  omega

theorem toNat_principal (fees : FeeSchedule) (amount : Word) :
    (fees.split amount).principal.toNat =
      amount.toNat - (fees.split amount).cause.toNat - (fees.split amount).platformFee.toNat :=
  rfl

/-- A share is the exact share rounded down, up to the greatest word.  With a valid
schedule no bound is reached: neither a product nor a sum leaves the range, and the two
shares are no more than the amount.  The three parts make up the amount, and the
principal has its own share rounded down and at most two units of dust. -/
theorem split_exact_and_conserving (amount : Word) :
    (∀ bps : UInt16, (bpsShare amount bps).toNat =
      min (amount.toNat * bps.toNat / wholeBps) (wordLimit - 1)) ∧
    ∀ fees : FeeSchedule, fees.IsValid →
      let split := fees.split amount
      split.cause.toNat = amount.toNat * fees.causeBps.toNat / wholeBps ∧
      split.platformFee.toNat = amount.toNat * fees.platformFeeBps.toNat / wholeBps ∧
      (∀ bps ∈ [fees.causeBps, fees.platformFeeBps],
        amount.toNat / wholeBps * bps.toNat < wordLimit ∧
        amount.toNat / wholeBps * bps.toNat +
          amount.toNat % wholeBps * bps.toNat / wholeBps < wordLimit) ∧
      split.cause.toNat + split.platformFee.toNat ≤ amount.toNat ∧
      split.cause.toNat + split.principal.toNat + split.platformFee.toNat = amount.toNat ∧
      amount.toNat * fees.principalBps / wholeBps ≤ split.principal.toNat ∧
      split.principal.toNat ≤ amount.toNat * fees.principalBps / wholeBps + 2 := by
  refine ⟨toNat_bpsShare amount, fun fees hvalid => ?_⟩
  intro split
  have hcause : split.cause.toNat = amount.toNat * fees.causeBps.toNat / wholeBps :=
    toNat_bpsShare_of_le hvalid.causeBps_le
  have hplatform : split.platformFee.toNat =
      amount.toNat * fees.platformFeeBps.toNat / wholeBps :=
    toNat_bpsShare_of_le hvalid.platformFeeBps_le
  have hprincipal : split.principal.toNat =
      amount.toNat - split.cause.toNat - split.platformFee.toNat := toNat_principal fees amount
  have hrounded := shares_within_two (x := amount.toNat) hvalid.sum_eq
  refine ⟨hcause, hplatform, ?_, ?_⟩
  · intro bps hbps
    simp only [List.mem_cons, List.not_mem_nil, or_false] at hbps
    rcases hbps with rfl | rfl
    · exact parts_lt_wordLimit hvalid.causeBps_le
    · exact parts_lt_wordLimit hvalid.platformFeeBps_le
  · rw [← hcause, ← hplatform] at hrounded
    generalize amount.toNat * fees.principalBps / wholeBps = share at hrounded ⊢
    omega

/-- The greatest amount is split without loss, and with thirds of two units the dust
reaches its bound. -/
theorem split_exact_and_conserving_of_top :
    let usual : FeeSchedule := {}
    let thirds : FeeSchedule := ⟨3333, 3333⟩
    let two : Word := ⟨2, by decide⟩
    (usual.IsValid ∧ (usual.split Word.top).cause.toNat = Word.top.toNat * 7800 / wholeBps ∧
      (usual.split Word.top).cause.toNat + (usual.split Word.top).principal.toNat +
        (usual.split Word.top).platformFee.toNat = Word.top.toNat) ∧
    thirds.IsValid ∧ 2 * thirds.principalBps / wholeBps = 0 ∧
      (thirds.split two).principal.toNat ≤ 0 + 2 ∧ (thirds.split two).principal.toNat = 2 := by
  intro usual thirds two
  have husual : usual.IsValid := by decide
  have hthirds : thirds.IsValid := by decide
  obtain ⟨hcause, -, -, -, hsum, -⟩ := (split_exact_and_conserving Word.top).2 usual husual
  obtain ⟨hnone, hnoFee, -, -, hwhole, -, hdust⟩ :=
    (split_exact_and_conserving two).2 thirds hthirds
  have hshare : 2 * thirds.principalBps / wholeBps = 0 := by decide
  have hprincipal : (thirds.split two).principal.toNat = 2 := by
    rw [hnone, hnoFee] at hwhole
    simpa [thirds, two, wholeBps] using hwhole
  exact ⟨⟨husual, hcause, hsum⟩, hthirds, hshare, hshare ▸ hdust, hprincipal⟩

end FeeSchedule

end DonationFlow
