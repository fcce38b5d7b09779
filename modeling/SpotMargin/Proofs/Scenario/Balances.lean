import SpotMargin.Proofs.Balance
import SpotMargin.Proofs.Scenario.Orders
import SpotMargin.Proofs.Scenario.Prices

/-!
# More held never hurts

Without a size curve, holding more or owing less never lowers the worst case:
`freeCollateral_le_of_holdsNoMore`.  The amount of tokens grows with what is held, its value grows
with the amount although the bound of the price changes with the side of zero, and under one
weighting each fill grows with the value.
-/

namespace SpotMargin

open Fixed

namespace Position

/-- The position holds no more, or owes no less, than the other.  Any deposit is more than any
borrow. -/
def HoldsNoMore (position other : Position) : Prop :=
  match position.balanceType, other.balanceType with
  | .deposit, .deposit => position.scaledBalance ≤ other.scaledBalance
  | .borrow, .borrow => other.scaledBalance ≤ position.scaledBalance
  | .borrow, .deposit => True
  | .deposit, .borrow => False

/-- The orders of both positions are of the same sizes. -/
structure SameOrders (position other : Position) : Prop where
  bids : position.openBids = other.openBids
  asks : position.openAsks = other.openAsks

end Position

namespace MarketMath

variable {position other : Position} {market : Market} {price : StrictPrice}
  {category : MarginCategory} {amount value greater greaterValue : Fixed}
  {scenario better : Scenario}

theorem amount_of_appraise
    (appraised : standard.appraise position market price = .ok (amount, value)) :
    ∃ magnitude,
      market.tokenAmount position.scaledBalance position.balanceType = .ok magnitude ∧
        amount.toInt = Unbounded.signedAmount magnitude.toInt position.balanceType := by
  simp only [appraise, bind_eq_ok_iff] at appraised
  obtain ⟨magnitude, magnitude_eq, signed, signed_eq, _, _, same⟩ := appraised
  cases same
  exact ⟨magnitude, magnitude_eq, BalanceType.toInt_signedAmount signed_eq⟩

theorem amount_le_of_holdsNoMore (valid : market.Valid)
    (nonneg : 0 ≤ position.scaledBalance.toInt) (other_nonneg : 0 ≤ other.scaledBalance.toInt)
    (holds : position.HoldsNoMore other)
    (appraised : standard.appraise position market price = .ok (amount, value))
    (other_appraised : standard.appraise other market price = .ok (greater, greaterValue)) :
    amount.toInt ≤ greater.toInt := by
  obtain ⟨magnitude, magnitude_eq, amount_eq⟩ := amount_of_appraise appraised
  obtain ⟨otherMagnitude, otherMagnitude_eq, greater_eq⟩ := amount_of_appraise other_appraised
  have magnitude_nonneg := Market.tokenAmount_nonneg valid nonneg magnitude_eq
  have otherMagnitude_nonneg := Market.tokenAmount_nonneg valid other_nonneg otherMagnitude_eq
  rw [amount_eq, greater_eq]
  rw [Position.HoldsNoMore] at holds
  cases type : position.balanceType <;> cases otherType : other.balanceType <;>
    rw [type] at magnitude_eq holds <;> rw [otherType] at otherMagnitude_eq holds <;>
    simp only [Unbounded.signedAmount]
  case deposit.deposit =>
    exact Market.tokenAmount_mono valid nonneg holds magnitude_eq otherMagnitude_eq
  case borrow.borrow =>
    have debt_le :=
      Market.tokenAmount_mono valid other_nonneg holds otherMagnitude_eq magnitude_eq
    rw [le_iff] at debt_le
    omega
  case borrow.deposit => omega
  case deposit.borrow => exact holds.elim

/-- In a valid market without a size curve, and at a price with a lower bound that is not negative,
the worst case never contributes less for holding more or owing less with the same orders. -/
theorem freeCollateral_le_of_holdsNoMore (valid : market.Valid) (flat : market.imfFactor = 0)
    (lower_nonneg : 0 ≤ price.lower) (orders : position.SameOrders other)
    (holds : position.HoldsNoMore other)
    (returned : (standard.worstCase position market price category).result = .ok scenario)
    (other_returned : (standard.worstCase other market price category).result = .ok better) :
    scenario.freeCollateral ≤ better.freeCollateral := by
  have applies := applies_flatWeighting flat price.current category
  set weighting := market.flatWeighting price.current category
  obtain ⟨nonneg, -⟩ := worstCase_cases returned
  obtain ⟨other_nonneg, -⟩ := worstCase_cases other_returned
  obtain ⟨amount, value, appraised, bids, asks, bids_fill, asks_fill, minimum⟩ :=
    worstCase_fills (standard_tokenValue_zero _ _) returned
  obtain ⟨greater, greaterValue, other_appraised, otherBids, otherAsks, otherBids_fill,
    otherAsks_fill, other_minimum⟩ := worstCase_fills (standard_tokenValue_zero _ _) other_returned
  have value_le : value.toInt ≤ greaterValue.toInt := by
    rw [toInt_appraise appraised, toInt_appraise other_appraised]
    exact StrictPrice.value_mono _ lower_nonneg
      (amount_le_of_holdsNoMore valid nonneg.1 other_nonneg.1 holds appraised other_appraised)
  rw [le_iff, minimum, other_minimum,
    bids_fill.freeCollateral_eq_bid (applies _), bids_fill.charge_eq, orders.bids,
    asks_fill.freeCollateral_eq_ask (applies _), asks_fill.charge_eq, orders.asks,
    otherBids_fill.freeCollateral_eq_bid (applies _), otherBids_fill.charge_eq,
    otherAsks_fill.freeCollateral_eq_ask (applies _), otherAsks_fill.charge_eq]
  exact min_le_min (weighting.bid_mono_value value_le) (weighting.ask_mono value_le (le_refl _))

/-- A debt whose worst case is the fill of the asks, beside a holding with the same orders whose
worst case is the fill of the bids. -/
theorem freeCollateral_le_where_debt_becomes_holding :
    ∃ market : Market, ∃ scenario better,
      market.Valid ∧ market.imfFactor = 0 ∧
      (standard.worstCase
        { scaledBalance := 20000000001, balanceType := .borrow, openBids := 500000000,
          openAsks := 50000000 }
        market { current := 10000000, twap := some 10500000 } .initial).result = .ok scenario ∧
      (standard.worstCase
        { scaledBalance := 90000000000, openBids := 500000000, openAsks := 50000000 }
        market { current := 10000000, twap := some 10500000 } .initial).result = .ok better ∧
      scenario.freeCollateral ≤ better.freeCollateral := by
  refine ⟨{
    depositBalance := 5000000000000, initialAssetWeight := 9000, initialLiabilityWeight := 12000
    scaleStart := 45000000000 }, {
    tokenAmount := -70000001, ordersValue := -525000000, tokenValue := -735000010
    weight := 12000, weightedTokenValue := -882000012, freeCollateral := -1407000012 }, {
    tokenAmount := 590000000, ordersValue := -5250000000, tokenValue := 6150000000
    weight := 8100, weightedTokenValue := 4981500000, freeCollateral := -268500000 }, ?_⟩
  refine (fun valid returned better => ⟨valid, rfl, returned, better,
    freeCollateral_le_of_holdsNoMore valid rfl (by decide) ⟨by rfl, by rfl⟩ (by trivial) returned
      better⟩) ?_ ?_ ?_ <;> decide +kernel

end MarketMath
end SpotMargin
