import SpotMargin.Proofs.Scenario.Standard
import SpotMargin.Proofs.Weight

/-!
# Resting orders never improve the worst case

Without a size curve one weighting applies to every amount.  The worst case then contributes no more
than any scenario in which only part of the orders of one side is filled, and so no more than the
worst case with fewer orders: `freeCollateral_le_of_fewer_orders`.
-/

namespace SpotMargin

open Fixed

namespace Position

/-- The size of the orders on one side. -/
def openSize (position : Position) : OrderSide → Fixed
  | .bid => position.openBids
  | .ask => position.openAsks

/-- The position with other orders. -/
def withOrders (position : Position) (bids asks : Fixed) : Position :=
  { position with openBids := bids, openAsks := asks }

end Position

/-- The weighting of every amount in a market without a size curve. -/
def Market.flatWeighting (market : Market) (spot : Fixed) (category : MarginCategory) : Weighting :=
  .ofResults (Weight.base .standard spot market category) (.ok (market.liabilityWeight category))

namespace MarketMath

variable {position : Position} {market : Market} {price : StrictPrice} {category : MarginCategory}
  {amount value size : Fixed} {side : OrderSide} {scenario better : Scenario}

theorem applies_flatWeighting (flat : market.imfFactor = 0) (spot : Fixed)
    (category : MarginCategory) (amount : Fixed) :
    standard.Applies spot market category amount (market.flatWeighting spot category) := by
  intro value weighted weighs
  apply weighs.value_eq_ofResults
  · intro value_nonneg
    exact Weight.base_eq_ok_of_flat flat (weighs.asset value_nonneg)
  · intro value_neg
    obtain ⟨magnitude, -, returned⟩ := bind_eq_ok_iff.mp (weighs.liability value_neg)
    rw [Weight.eq_liabilityWeight_of_flat flat returned]

theorem freeCollateral_le_of_fills (flat : market.imfFactor = 0) (upper_nonneg : 0 ≤ price.upper)
    (appraised : standard.appraise position market price = .ok (amount, value))
    (returned : (standard.worstCase position market price category).result = .ok scenario)
    (fills : standard.Fills amount value side size price market category better)
    (size_le : size ≤ position.openSize side) :
    scenario.freeCollateral.toInt ≤ better.freeCollateral.toInt := by
  have applies := applies_flatWeighting flat price.current category
  set weighting := market.flatWeighting price.current category
  obtain ⟨_, _, same, bids, asks, bids_fill, asks_fill, minimum⟩ :=
    worstCase_fills (standard_tokenValue_zero _ _) returned
  rw [appraised] at same
  cases same
  rw [minimum, bids_fill.freeCollateral_eq_bid (applies _), bids_fill.charge_eq,
    asks_fill.freeCollateral_eq_ask (applies _), asks_fill.charge_eq]
  have size_nonneg := fills.size_nonneg
  have charge_nonneg {size : Fixed} (nonneg : 0 ≤ size.toInt) :=
    Exact.value_nonneg market.decimals.toNat nonneg upper_nonneg
  have charge_le := Exact.value_mono_amount market.decimals.toNat size_le upper_nonneg
  cases side with
  | bid =>
      rw [fills.freeCollateral_eq_bid (applies _), fills.charge_eq]
      exact weighting.min_le_bid (charge_nonneg size_nonneg) charge_le
        (charge_nonneg asks_fill.size_nonneg)
  | ask =>
      rw [fills.freeCollateral_eq_ask (applies _), fills.charge_eq]
      exact (min_le_right _ _).trans (weighting.ask_mono (le_refl _) charge_le)

/-- Without a size curve, and with an upper bound of the price that is not negative, the worst case
contributes no more than the worst case of the same balance with fewer orders, and no more than the
balance as it is or after a partial fill of one side. -/
theorem freeCollateral_le_of_fewer_orders (flat : market.imfFactor = 0)
    (upper_nonneg : 0 ≤ price.upper)
    (returned : (standard.worstCase position market price category).result = .ok scenario) :
    (∀ bids asks better, bids ≤ position.openBids → asks ≤ position.openAsks →
      (standard.worstCase (position.withOrders bids asks) market price category).result =
        .ok better →
      scenario.freeCollateral ≤ better.freeCollateral) ∧
    ∀ amount value, standard.appraise position market price = .ok (amount, value) →
      (∀ better, (standard.valueUnfilled amount value price market category).result = .ok better →
        scenario.freeCollateral ≤ better.freeCollateral) ∧
      ∀ side size better, size ≤ position.openSize side →
        (standard.valueFilled amount value side size price market category).result = .ok better →
        scenario.freeCollateral ≤ better.freeCollateral := by
  have le_of_fills {amount value : Fixed}
      (appraised : standard.appraise position market price = .ok (amount, value))
      {side : OrderSide} {size : Fixed} {better : Scenario}
      (fills : standard.Fills amount value side size price market category better)
      (size_le : size ≤ position.openSize side) :
      scenario.freeCollateral.toInt ≤ better.freeCollateral.toInt :=
    freeCollateral_le_of_fills flat upper_nonneg appraised returned fills size_le
  refine ⟨?_, ?_⟩
  · intro bids asks better bids_le asks_le fewer_returned
    obtain ⟨amount, value, appraised, _, _, bids_fill, asks_fill, minimum⟩ :=
      worstCase_fills (standard_tokenValue_zero _ _) fewer_returned
    rw [le_iff, minimum]
    exact le_min (le_of_fills appraised bids_fill bids_le) (le_of_fills appraised asks_fill asks_le)
  · intro amount value appraised
    refine ⟨?_, ?_⟩
    · intro better unfilled_returned
      have fills := (unfilled_of_eq_ok unfilled_returned).fills (standard_tokenValue_zero _ _) .bid
      obtain ⟨nonneg, -⟩ := worstCase_cases returned
      exact le_of_fills appraised fills nonneg.2.1
    · intro side size better size_le fill_returned
      exact le_of_fills appraised (fills_of_eq_ok fill_returned) size_le

/-- A debt with orders on both sides, in a market that derates its asset weight. -/
theorem freeCollateral_le_without_orders :
    ∃ scenario better,
      (standard.worstCase
        { scaledBalance := 100000000001, balanceType := .borrow, openBids := 130000000,
          openAsks := 50000000 }
        { depositBalance := 5000000000, initialAssetWeight := 8000,
          initialLiabilityWeight := 12000, scaleStart := 10000000 }
        { current := 10000000, twap := some 10500000 } .initial).result = .ok scenario ∧
      (standard.worstCase
        (Position.withOrders
          { scaledBalance := 100000000001, balanceType := .borrow, openBids := 130000000,
            openAsks := 50000000 } 30000000 0)
        { depositBalance := 5000000000, initialAssetWeight := 8000,
          initialLiabilityWeight := 12000, scaleStart := 10000000 }
        { current := 10000000, twap := some 10500000 } .initial).result = .ok better ∧
      scenario.freeCollateral ≤ better.freeCollateral := by
  refine ⟨{
    tokenAmount := -150000001, ordersValue := -525000000, tokenValue := -1575000010
    weight := 12000, weightedTokenValue := -1890000012, freeCollateral := -2415000012 }, {
    tokenAmount := -100000001, ordersValue := 0, tokenValue := -1050000010
    weight := 12000, weightedTokenValue := -1260000012, freeCollateral := -1260000012 }, ?_⟩
  refine (fun returned better => ⟨returned, better, (freeCollateral_le_of_fewer_orders rfl
    (by decide) returned).1 _ _ _ (by decide) (by decide) better⟩) ?_ ?_ <;> decide +kernel

end MarketMath
end SpotMargin
