import SpotMargin.Proofs.Scenario.Standard
import SpotMargin.Proofs.Value
import SpotMargin.Proofs.Weight

/-!
# Wider prices never improve the worst case

A wider price lowers the value of a position and raises the charge for its orders, but it also
raises what a debt has gained once orders to buy have been filled.  The worst case still contributes
no more: `freeCollateral_le_of_widens`.  Where the gain counts, a debt remains after the orders to
buy, and the orders to sell leave a greater debt, whose liability weight is no lower.
-/

namespace SpotMargin

open Fixed

namespace StrictPrice

variable {wide narrow : StrictPrice}

/-- The prices have the same current price, and the bounds of the wide one are no closer. -/
structure Widens (wide narrow : StrictPrice) : Prop where
  current : wide.current = narrow.current
  lower_le : wide.lower ≤ narrow.lower
  le_upper : narrow.upper ≤ wide.upper

/-- An average beside the current price widens it. -/
theorem widens_of_twap (current twap : Fixed) :
    Widens { current, twap := some twap } { current } where
  current := rfl
  lower_le := lower_le_current { current, twap := some twap }
  le_upper := current_le_upper { current, twap := some twap }

/-- No amount is worth more at a wider price, whose bounds enclose the adverse one of the narrow
price. -/
theorem Widens.value_le (widens : wide.Widens narrow) (amount : Fixed) (decimals : Nat) :
    Exact.value amount.toInt decimals (wide.adverse amount).toInt ≤
      Exact.value amount.toInt decimals (narrow.adverse amount).toInt :=
  value_adverse_le decimals
    (Int.le_trans widens.lower_le (narrow.lower_le_adverse amount))
    (Int.le_trans (narrow.adverse_le_upper amount) widens.le_upper)

end StrictPrice

namespace MarketMath

variable {position : Position} {market : Market} {price wide narrow : StrictPrice}
  {category : MarginCategory} {amount value greater greaterValue spot : Fixed}
  {scenario better bids asks : Scenario}

theorem Weighs.liability_weighting {math : MarketMath} {weighted : WeightedValue}
    (weighs : math.Weighs amount value spot market category weighted) (owed : value.toInt < 0) :
    (math.weighting amount spot market category).liability = weighted.weight.toInt :=
  Weighting.liability_ofResults (weighs.liability owed) (weighs.multiple owed)

/-- Of two debts that have been weighed, the greater has no lower liability weight. -/
theorem Weighs.liability_le (valid : market.Valid) {weighted heavier : WeightedValue}
    (weighs : standard.Weighs amount value spot market category weighted)
    (greater_weighs : standard.Weighs greater greaterValue spot market category heavier)
    (owed : value.toInt < 0) (greater_owed : greaterValue.toInt < 0)
    (amount_le : amount.toInt.natAbs ≤ greater.toInt.natAbs) :
    (standard.weighting amount spot market category).liability ≤
      (standard.weighting greater spot market category).liability := by
  obtain ⟨debt, debt_eq, returned⟩ := bind_eq_ok_iff.mp (weighs.liability owed)
  obtain ⟨greaterDebt, greaterDebt_eq, greater_returned⟩ :=
    bind_eq_ok_iff.mp (greater_weighs.liability greater_owed)
  rw [checkedAbs_eq_ok_iff] at debt_eq greaterDebt_eq
  rw [weighs.liability_weighting owed, greater_weighs.liability_weighting greater_owed]
  apply Weight.liability_mono valid _ _ returned greater_returned
  · omega
  · rw [le_iff]
    omega

/-- A position whose value stays negative as its orders to buy are filled owes more tokens than the
orders would buy. -/
theorem owed_of_value_neg {size : Fixed} {decimals : Nat}
    (lower_nonneg : 0 ≤ price.lower.toInt) (size_nonneg : 0 ≤ size.toInt)
    (owed : Exact.value amount.toInt decimals (price.adverse amount).toInt +
      Exact.value size.toInt decimals price.upper.toInt < 0) :
    amount.toInt + size.toInt < 0 := by
  have upper_nonneg := lower_nonneg.trans price.lower_le_upper
  have charge_nonneg := Exact.value_nonneg decimals size_nonneg upper_nonneg
  rw [StrictPrice.adverse] at owed
  split at owed <;> rename_i held <;> rw [lt_iff, toInt_zero] at held
  · have value_nonneg := Exact.value_nonneg decimals held.le lower_nonneg
    omega
  · by_contra repaid
    have covered := Exact.value_mono_amount decimals
      (by omega : -amount.toInt ≤ size.toInt) upper_nonneg
    rw [Exact.value_neg] at covered
    omega

/-- While a debt remains after the orders to buy, the orders to sell leave one with no lower
liability weight. -/
theorem liability_le_of_owed (valid : market.Valid)
    (appraised : standard.appraise position market price = .ok (amount, value))
    (lower_nonneg : 0 ≤ price.lower.toInt)
    (bids_fill : standard.Fills amount value .bid position.openBids price market category bids)
    (asks_fill : standard.Fills amount value .ask position.openAsks price market category asks)
    (owed : value.toInt + -bids.ordersValue.toInt < 0) :
    (standard.weighting bids.tokenAmount price.current market category).liability ≤
      (standard.weighting asks.tokenAmount price.current market category).liability := by
  have upper_nonneg := lower_nonneg.trans price.lower_le_upper
  have bids_nonneg := bids_fill.size_nonneg
  have asks_nonneg := asks_fill.size_nonneg
  have bids_charge_nonneg := bids_fill.charge_eq ▸
    Exact.value_nonneg market.decimals.toNat bids_nonneg upper_nonneg
  have asks_charge_nonneg := asks_fill.charge_eq ▸
    Exact.value_nonneg market.decimals.toNat asks_nonneg upper_nonneg
  have remains : amount.toInt + position.openBids.toInt < 0 := by
    apply owed_of_value_neg lower_nonneg bids_nonneg
    rwa [← toInt_appraise appraised, ← bids_fill.charge_eq]
  have bought := bids_fill.tokenAmount
  have sold := asks_fill.tokenAmount
  have bids_value := bids_fill.tokenValue
  have asks_value := asks_fill.tokenValue
  simp only [OrderSide.sign] at bought sold bids_value asks_value
  apply Weighs.liability_le valid bids_fill.weighs asks_fill.weighs <;> omega

/-- In a valid market a wider price, with a lower bound that is not negative, never improves the
worst case. -/
theorem freeCollateral_le_of_widens (valid : market.Valid) (widens : wide.Widens narrow)
    (lower_nonneg : 0 ≤ wide.lower)
    (returned : (standard.worstCase position market wide category).result = .ok scenario)
    (narrow_returned : (standard.worstCase position market narrow category).result = .ok better) :
    scenario.freeCollateral ≤ better.freeCollateral := by
  obtain ⟨amount, value, appraised, bids, asks, bids_fill, asks_fill, minimum⟩ :=
    worstCase_fills (standard_tokenValue_zero _ _) returned
  obtain ⟨_, greater, narrow_appraised, bought, sold, bought_fill, sold_fill, narrow_minimum⟩ :=
    worstCase_fills (standard_tokenValue_zero _ _) narrow_returned
  cases amount_eq_of_appraise appraised narrow_appraised
  -- Both prices fill the same amounts, so one weighting applies to each side at either price.
  have bought_eq : bids.tokenAmount = bought.tokenAmount :=
    Fixed.ext (bids_fill.tokenAmount.trans bought_fill.tokenAmount.symm)
  have sold_eq : asks.tokenAmount = sold.tokenAmount :=
    Fixed.ext (asks_fill.tokenAmount.trans sold_fill.tokenAmount.symm)
  have bought_applies :=
    applies_weighting standard bought.tokenAmount narrow.current market category
  have sold_applies := applies_weighting standard sold.tokenAmount narrow.current market category
  rw [le_iff, minimum, narrow_minimum,
    bids_fill.freeCollateral_eq_bid (by rwa [widens.current, bought_eq]),
    asks_fill.freeCollateral_eq_ask (by rwa [widens.current, sold_eq]),
    bought_fill.freeCollateral_eq_bid bought_applies,
    sold_fill.freeCollateral_eq_ask sold_applies]
  have narrow_lower_nonneg : 0 ≤ narrow.lower.toInt := lower_nonneg.trans widens.lower_le
  have upper_nonneg : 0 ≤ narrow.upper.toInt := narrow_lower_nonneg.trans narrow.lower_le_upper
  apply Weighting.min_wider
  · rw [toInt_appraise appraised, toInt_appraise narrow_appraised]
    exact widens.value_le amount _
  · rw [bought_fill.charge_eq]
    exact Exact.value_nonneg _ bought_fill.size_nonneg upper_nonneg
  · rw [bids_fill.charge_eq, bought_fill.charge_eq]
    exact Exact.value_mono_price _ bought_fill.size_nonneg widens.le_upper
  · rw [sold_fill.charge_eq]
    exact Exact.value_nonneg _ sold_fill.size_nonneg upper_nonneg
  · rw [asks_fill.charge_eq, sold_fill.charge_eq]
    exact Exact.value_mono_price _ sold_fill.size_nonneg widens.le_upper
  · exact liability_le_of_owed valid narrow_appraised narrow_lower_nonneg bought_fill sold_fill

/-- An average widens the price of a debt with orders on both sides, in a market with a size
curve. -/
theorem freeCollateral_le_with_twap :
    ∃ market : Market, ∃ scenario better,
      market.Valid ∧
      (standard.worstCase
        { scaledBalance := 100000000001, balanceType := .borrow, openBids := 130000000,
          openAsks := 50000000 }
        market { current := 10000000, twap := some 10500000 } .initial).result = .ok scenario ∧
      (standard.worstCase
        { scaledBalance := 100000000001, balanceType := .borrow, openBids := 130000000,
          openAsks := 50000000 }
        market { current := 10000000 } .initial).result = .ok better ∧
      scenario.freeCollateral ≤ better.freeCollateral := by
  refine ⟨{
    depositBalance := 5000000000, initialAssetWeight := 8000, initialLiabilityWeight := 12000
    scaleStart := 10000000, imfFactor := 10000 }, {
    tokenAmount := -150000001, ordersValue := -525000000, tokenValue := -1575000010
    weight := 13104, weightedTokenValue := -2063880013, freeCollateral := -2588880013 }, {
    tokenAmount := -150000001, ordersValue := -500000000, tokenValue := -1500000010
    weight := 13104, weightedTokenValue := -1965600013, freeCollateral := -2465600013 }, ?_⟩
  refine (fun valid returned better => ⟨valid, returned, better, freeCollateral_le_of_widens valid
    (StrictPrice.widens_of_twap _ _) (by decide) returned better⟩) ?_ ?_ ?_ <;> decide +kernel

end MarketMath
end SpotMargin
