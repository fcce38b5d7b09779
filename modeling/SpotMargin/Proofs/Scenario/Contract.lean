import SpotMargin.Proofs.Scenario.Steps

/-!
# The contract of the worst case

The valuation checks the weights that it is given, so its bounds hold for any conversions and any
weight curves.  `worstCase_contract` collects them.
-/

namespace SpotMargin

open Fixed

/-- The weight of the scenario fits the sign of its value, and the weighted value is the product of
both, truncated toward zero, on the conservative side of the value. -/
structure Scenario.WellWeighted (scenario : Scenario) : Prop where
  fraction : 0 ≤ scenario.tokenValue → 0 ≤ scenario.weight ∧ scenario.weight ≤ Precision.weight
  multiple : scenario.tokenValue < 0 → Precision.weight ≤ scenario.weight
  truncated : scenario.weightedTokenValue.toInt =
    (scenario.tokenValue.toInt * scenario.weight.toInt).tdiv Precision.weight.toInt
  between : 0 ≤ scenario.tokenValue →
    0 ≤ scenario.weightedTokenValue ∧ scenario.weightedTokenValue ≤ scenario.tokenValue
  below : scenario.tokenValue < 0 → scenario.weightedTokenValue ≤ scenario.tokenValue

/-- The scenario is the one of the two that contributes less, and the first one on a tie. -/
structure Scenario.IsWorseOf (scenario bids asks : Scenario) : Prop where
  selected : scenario = bids ∨ scenario = asks
  minimum : scenario.freeCollateral.toInt =
    min bids.freeCollateral.toInt asks.freeCollateral.toInt
  tie : bids.freeCollateral = asks.freeCollateral → scenario = bids

theorem Scenario.isWorseOf_select (bids asks : Scenario) :
    (select bids asks (worseSide bids asks)).IsWorseOf bids asks where
  selected := by
    cases worseSide bids asks with
    | bid => exact .inl rfl
    | ask => exact .inr rfl
  minimum := MarketMath.freeCollateral_select bids asks
  tie := by
    intro tie
    have not_worse : ¬asks.freeCollateral < bids.freeCollateral := by
      rw [lt_iff, tie]
      omega
    rw [worseSide, if_neg not_worse]
    rfl

namespace MarketMath

variable {math : MarketMath} {position : Position} {market : Market} {price : StrictPrice}
  {category : MarginCategory} {amount value size spot : Fixed} {scenario : Scenario}

theorem Settles.wellWeighted (settles : math.Settles spot market category scenario) :
    scenario.WellWeighted := by
  have weighs := settles.weighs
  have applied := math.applies_weighting scenario.tokenAmount spot market category _ _ weighs
  dsimp only at applied
  exact {
    fraction := weighs.fraction
    multiple := weighs.multiple
    truncated := weighs.exact
    between := by
      intro nonneg
      rw [le_iff, le_iff, applied]
      exact ⟨Weighting.apply_nonneg _ nonneg, Weighting.apply_le _ _⟩
    below := by
      intro _
      rw [le_iff, applied]
      exact Weighting.apply_le _ _ }

theorem Unfilled.freeCollateral_le
    (unfilled : math.Unfilled amount value spot market category scenario) :
    scenario.freeCollateral.toInt ≤ value.toInt := by
  have weighted := math.applies_weighting scenario.tokenAmount spot market category _ _
    unfilled.weighs
  dsimp only at weighted
  rw [unfilled.freeCollateral, weighted, unfilled.ordersValue, unfilled.tokenValue, toInt_zero,
    Int.add_zero]
  exact Weighting.apply_le _ _

theorem Fills.freeCollateral_le_of_bid
    (fills : math.Fills amount value .bid size price market category scenario) :
    scenario.freeCollateral.toInt ≤ value.toInt := by
  rw [fills.freeCollateral_eq_bid (math.applies_weighting _ _ _ _)]
  exact Weighting.bid_le _ _ _

/-- The charge for orders to sell counts twice: it has left the value, and it is charged. -/
theorem Fills.freeCollateral_le_of_ask
    (fills : math.Fills amount value .ask size price market category scenario) :
    scenario.freeCollateral.toInt ≤ value.toInt + 2 * scenario.ordersValue.toInt := by
  have bound := Weighting.ask_le
    (math.weighting scenario.tokenAmount price.current market category) value.toInt
    (-scenario.ordersValue.toInt)
  rw [fills.freeCollateral_eq_ask (math.applies_weighting _ _ _ _)]
  omega

/-- Whatever the conversions and the weight curves are, a worst case that is returned has a weight
within its bounds, contributes no more than the value of the position, and is the worse of its two
scenarios when there are orders. -/
theorem worstCase_contract
    (returned : (math.worstCase position market price category).result = .ok scenario) :
    scenario.WellWeighted ∧
      scenario.freeCollateral.toInt =
        scenario.weightedTokenValue.toInt + scenario.ordersValue.toInt ∧
      ∃ amount value, math.appraise position market price = .ok (amount, value) ∧
        scenario.freeCollateral ≤ value ∧
        (position.HasOpenSize → ∃ bids asks,
          (math.valueFilled amount value .bid position.openBids price market category).result =
            .ok bids ∧
          (math.valueFilled amount value .ask position.openAsks price market category).result =
            .ok asks ∧
          scenario.IsWorseOf bids asks ∧
          scenario.freeCollateral.toInt ≤ value.toInt + 2 * asks.ordersValue.toInt) := by
  obtain ⟨-, amount, value, appraised, ⟨none_open, unfilled_eq⟩ | ⟨-, bids, asks, bids_eq,
    asks_eq, rfl⟩⟩ := worstCase_cases returned
  · have unfilled := unfilled_of_eq_ok unfilled_eq
    refine ⟨unfilled.wellWeighted, unfilled.freeCollateral, amount, value, appraised,
      unfilled.freeCollateral_le, ?_⟩
    intro some_open
    exact absurd some_open none_open
  · have bids_fill := fills_of_eq_ok bids_eq
    have asks_fill := fills_of_eq_ok asks_eq
    have worse := Scenario.isWorseOf_select bids asks
    have bids_le := bids_fill.freeCollateral_le_of_bid
    have asks_le := asks_fill.freeCollateral_le_of_ask
    have settles : math.Settles price.current market category
        (Scenario.select bids asks (Scenario.worseSide bids asks)) := by
      rcases worse.selected with same | same <;> rw [same]
      · exact bids_fill.toSettles
      · exact asks_fill.toSettles
    refine ⟨settles.wellWeighted, settles.freeCollateral, amount, value, appraised, ?_, ?_⟩
    · rw [le_iff, worse.minimum]
      omega
    · intro _
      refine ⟨bids, asks, bids_eq, asks_eq, worse, ?_⟩
      rw [worse.minimum]
      omega

/-- Orders whose removal gains something, as no market would have them, do not lift the worst case
above the value either. -/
theorem worstCase_contract_of_gaining_orders :
    ∃ scenario,
      (worstCase
        { standard with
          tokenValue := fun amount _ _ => .ok (if amount = 0 then 0 else 7)
          assetWeight := fun _ _ _ _ => .ok 8000 }
        { scaledBalance := 100000000000, openBids := 10000000, openAsks := 50000000 } {}
        { current := 10000000, twap := some 10500000 } .initial).result = .ok scenario ∧
      scenario.WellWeighted ∧ scenario.freeCollateral = 800000001 := by
  refine ⟨{
    tokenAmount := 110000000, ordersValue := 7, tokenValue := 999999993, weight := 8000
    weightedTokenValue := 799999994, freeCollateral := 800000001 }, ?_⟩
  refine (fun returned => ⟨returned, (worstCase_contract returned).1, rfl⟩) ?_
  decide +kernel

end MarketMath
end SpotMargin
