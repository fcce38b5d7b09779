import SpotMargin.Proofs.Balance

/-!
# Deposit scaling

The initial asset weight is derated by the value of all deposits in the market.  Whatever raises
that value never raises the weight, and a higher scale start never lowers it:
`scaledInitial_derates`.  Derating sets in where it takes nothing off, so the weight does not jump
at the start.
-/

namespace SpotMargin

open Fixed

/-- The value of all deposits in the market at a price. -/
def Market.depositsValue (market : Market) (price : Int) : Int :=
  Exact.value
    ((market.depositBalance.toInt * market.depositInterest.toInt).tdiv
      (10 ^ (19 - market.decimals.toNat)))
    market.decimals.toNat price

namespace Market

variable {market : Market} {price higher : Int}

theorem Valid.depositBalance_nonneg (valid : market.Valid) : 0 ≤ market.depositBalance.toInt :=
  valid.fieldValid .depositBalance

theorem depositsValue_mono (valid : market.Valid) (price_le : price ≤ higher) :
    market.depositsValue price ≤ market.depositsValue higher := by
  have interest_pos : 0 < market.depositInterest.toInt := valid.interest_pos .deposit
  have deposits_nonneg := Int.tdiv_nonneg
    (Int.mul_nonneg valid.depositBalance_nonneg interest_pos.le)
    (Exact.unit_pos (19 - market.decimals.toNat)).le
  exact Exact.value_mono_price _ deposits_nonneg price_le

theorem depositsValue_mono_balance (valid : market.Valid) (price_nonneg : 0 ≤ price)
    {balance : Fixed} (balance_le : market.depositBalance ≤ balance) :
    market.depositsValue price ≤
      { market with depositBalance := balance : Market }.depositsValue price := by
  have interest_pos : 0 < market.depositInterest.toInt := valid.interest_pos .deposit
  apply Exact.value_mono_amount _ _ price_nonneg
  exact Int.tdiv_le_tdiv (Exact.unit_pos _)
    (Int.mul_le_mul_of_nonneg_right balance_le interest_pos.le)

theorem toInt_depositsValue {deposits value price : Fixed}
    (deposits_returned : market.tokenAmount market.depositBalance .deposit = .ok deposits)
    (value_returned : tokenValue deposits market.decimals price = .ok value) :
    value.toInt = market.depositsValue price.toInt := by
  rw [toInt_tokenValue value_returned, tokenAmount_deposit_eq deposits_returned]
  rfl

end Market

namespace Weight

variable {market : Market} {price weight : Fixed}

/-- The scaled weight is exact whenever it is returned, in a valid market or not. -/
theorem toInt_scaledInitial (returned : scaledInitial .standard market price = .ok weight) :
    weight.toInt =
      Exact.derated market.initialAssetWeight.toInt market.scaleStart.toInt
        (market.depositsValue price.toInt) := by
  rw [scaledInitial] at returned
  split at returned
  · rename_i off
    cases returned
    exact (Exact.derated_of_below (.inl (congrArg toInt off))).symm
  · rename_i on
    have start_ne : market.scaleStart.toInt ≠ 0 := fun zero => on (Fixed.ext zero)
    simp only [bind_eq_ok_iff] at returned
    obtain ⟨deposits, deposits_returned, value, value_returned, scaled⟩ := returned
    rw [← Market.toInt_depositsValue deposits_returned value_returned]
    split at scaled
    · rename_i below
      cases scaled
      exact (Exact.derated_of_below (.inr below)).symm
    · rename_i reached
      rw [(mulDiv_eq_ok_iff.mp scaled).2.2]
      exact (Exact.derated_of_reached start_ne (not_lt.mp reached)).symm

/-- In a valid market deposit scaling never divides by zero.  A scaled weight that is returned is
not negative and not above the initial weight.  It never rises with the price, nor with the balance
of all deposits at a price that is not negative, and it never falls as a positive scale start rises.
While the deposits are worth no more than the start it is the initial weight. -/
theorem scaledInitial_derates (valid : market.Valid) (price : Fixed) :
    scaledInitial .standard market price ≠ .error (.arithmetic .divisionByZero) ∧
    ∀ weight, scaledInitial .standard market price = .ok weight →
      (0 ≤ weight ∧ weight ≤ market.initialAssetWeight) ∧
      (∀ higher lighter, price ≤ higher →
        scaledInitial .standard market higher = .ok lighter → lighter ≤ weight) ∧
      (∀ balance lighter, 0 ≤ price → market.depositBalance ≤ balance →
        scaledInitial .standard { market with depositBalance := balance } price = .ok lighter →
        lighter ≤ weight) ∧
      (∀ start heavier, 0 < market.scaleStart → market.scaleStart ≤ start →
        scaledInitial .standard { market with scaleStart := start } price = .ok heavier →
        weight ≤ heavier) ∧
      ∀ deposits value, market.tokenAmount market.depositBalance .deposit = .ok deposits →
        tokenValue deposits market.decimals price = .ok value → value ≤ market.scaleStart →
        weight = market.initialAssetWeight := by
  obtain ⟨weight_nonneg, -⟩ := valid.initialAssetWeight_bounds
  have start_nonneg := valid.scaleStart_nonneg
  constructor
  · intro divided
    exact (ensures_scaledInitial valid price).fault_of_eq_error divided
  · intro weight returned
    have weight_eq := toInt_scaledInitial returned
    refine ⟨(ensures_scaledInitial valid price).result_of_eq_ok returned, ?_, ?_, ?_, ?_⟩
    · intro higher lighter price_le lighter_returned
      rw [le_iff, weight_eq, toInt_scaledInitial lighter_returned]
      exact Exact.derated_antitone weight_nonneg start_nonneg
        (Market.depositsValue_mono valid price_le)
    · intro balance lighter price_nonneg balance_le lighter_returned
      rw [le_iff, weight_eq, toInt_scaledInitial lighter_returned]
      exact Exact.derated_antitone weight_nonneg start_nonneg
        (Market.depositsValue_mono_balance valid price_nonneg balance_le)
    · intro start heavier start_pos start_le heavier_returned
      rw [le_iff, weight_eq, toInt_scaledInitial heavier_returned]
      exact Exact.derated_mono_start weight_nonneg start_pos start_le
    · intro deposits value deposits_returned value_returned value_le
      apply Fixed.ext
      rw [weight_eq, ← Market.toInt_depositsValue deposits_returned value_returned]
      exact Exact.derated_of_le value_le

/-- Deposits worth more than twice the start, a higher price, a greater balance and a higher start;
and the price at which the deposits are worth the start itself. -/
theorem scaledInitial_derates_beyond_the_start :
    ∃ market : Market, market.Valid ∧
      scaledInitial .standard market 10000000 = .ok 3600 ∧
      (0 ≤ (3600 : Fixed) ∧ 3600 ≤ market.initialAssetWeight) ∧
      (3272 : Fixed) ≤ 3600 ∧ (1800 : Fixed) ≤ 3600 ∧ (3600 : Fixed) ≤ 4800 ∧
      8000 = market.initialAssetWeight := by
  let market : Market :=
    { depositBalance := 10000000000, initialAssetWeight := 8000, scaleStart := 45000000 }
  have valid : market.Valid := by decide
  have derated : scaledInitial .standard market 10000000 = .ok 3600 := by decide +kernel
  have at_start : scaledInitial .standard market 4500000 = .ok 8000 := by decide +kernel
  obtain ⟨bounds, price, balance, start, -⟩ :=
    (scaledInitial_derates valid 10000000).2 3600 derated
  obtain ⟨-, -, -, -, boundary⟩ := (scaledInitial_derates valid 4500000).2 8000 at_start
  exact ⟨market, valid, derated, bounds,
    price 11000000 3272 (by decide) (by decide +kernel),
    balance 20000000000 1800 (by decide) (by decide) (by decide +kernel),
    start 60000000 4800 (by decide) (by decide) (by decide +kernel),
    boundary 10000000 45000000 (by decide +kernel) (by decide +kernel) (by decide)⟩

end Weight
end SpotMargin
