import SpotMargin.Proofs.Scenario.Standard
import SpotMargin.Proofs.Weight

/-!
# Opening is never valued looser than keeping

A market whose initial weights are no looser than its maintenance weights values every position no
looser for opening than for keeping: `freeCollateral_initial_le_maintenance`.  The two valuations
fill the same orders at the same values, so they differ in their weights alone, and deposit scaling
and the size curves keep the order of the weights.
-/

namespace SpotMargin

open Fixed

/-- The initial weights of the market are no looser than its maintenance weights. -/
structure Market.InitiallyStricter (market : Market) : Prop where
  asset_le : market.initialAssetWeight ≤ market.maintenanceAssetWeight
  liability_le : market.maintenanceLiabilityWeight ≤ market.initialLiabilityWeight

namespace Weight

variable {market : Market} {amount price strict lenient : Fixed}

theorem asset_initial_le_maintenance (valid : market.Valid) (stricter : market.InitiallyStricter)
    (initial_returned : asset .standard amount price market .initial = .ok strict)
    (maintenance_returned : asset .standard amount price market .maintenance = .ok lenient) :
    strict ≤ lenient := by
  obtain ⟨scaled, scaled_eq, strict_eq⟩ :=
    (ensures_asset_exact valid amount price .initial).result_of_eq_ok initial_returned
  obtain ⟨kept, kept_eq, lenient_eq⟩ :=
    (ensures_asset_exact valid amount price .maintenance).result_of_eq_ok maintenance_returned
  cases kept_eq
  have scaled_le := ((ensures_scaledInitial valid price).result_of_eq_ok scaled_eq).2
  rw [le_iff, strict_eq, lenient_eq]
  exact Exact.discounted_mono_weight (scaled_le.trans stricter.asset_le)

theorem liability_maintenance_le_initial (valid : market.Valid)
    (stricter : market.InitiallyStricter) (amount_nonneg : 0 ≤ amount.toInt)
    (initial_returned : liability amount market .initial = .ok strict)
    (maintenance_returned : liability amount market .maintenance = .ok lenient) :
    lenient ≤ strict := by
  have one_le := valid.one_le_liabilityWeight .maintenance
  rw [le_iff, (ensures_liability valid amount_nonneg .initial).result_of_eq_ok initial_returned,
    (ensures_liability valid amount_nonneg .maintenance).result_of_eq_ok maintenance_returned]
  exact Exact.withPremium_mono_weight (by omega) stricter.liability_le

end Weight

namespace MarketMath

variable {math : MarketMath} {position : Position} {market : Market} {price : StrictPrice}
  {category other : MarginCategory} {amount value size spot : Fixed} {side : OrderSide}
  {scenario better : Scenario}

theorem Weighs.value_le_of_weights {strict lenient : WeightedValue}
    (weighs : math.Weighs amount value spot market category strict)
    (other_weighs : math.Weighs amount value spot market other lenient)
    (asset_le : 0 ≤ value.toInt → strict.weight ≤ lenient.weight)
    (liability_le : value.toInt < 0 → lenient.weight ≤ strict.weight) :
    strict.value ≤ lenient.value := by
  rw [le_iff, weighs.exact, other_weighs.exact]
  apply Int.tdiv_le_tdiv (by decide)
  rcases Int.lt_or_le value.toInt 0 with owed | held
  · exact Int.mul_le_mul_of_nonpos_left owed.le (liability_le owed)
  · exact Int.mul_le_mul_of_nonneg_left (asset_le held) held

/-- In a market that is initially stricter, no value of an amount weighs more for opening. -/
theorem Weighs.value_initial_le (valid : market.Valid) (stricter : market.InitiallyStricter)
    {strict lenient : WeightedValue}
    (weighs : standard.Weighs amount value spot market .initial strict)
    (other_weighs : standard.Weighs amount value spot market .maintenance lenient) :
    strict.value ≤ lenient.value := by
  refine weighs.value_le_of_weights other_weighs ?_ ?_
  · intro held
    exact Weight.asset_initial_le_maintenance valid stricter (weighs.asset held)
      (other_weighs.asset held)
  · intro owed
    obtain ⟨magnitude, magnitude_eq, returned⟩ := bind_eq_ok_iff.mp (weighs.liability owed)
    have other_returned := other_weighs.liability owed
    rw [magnitude_eq, ok_bind] at other_returned
    rw [checkedAbs_eq_ok_iff] at magnitude_eq
    exact Weight.liability_maintenance_le_initial valid stricter (by omega) returned other_returned

/-- A fill has the same outcome for both categories, apart from its weight. -/
theorem Fills.same_outcome
    (fills : math.Fills amount value side size price market category scenario)
    (other_fills : math.Fills amount value side size price market other better) :
    better.tokenAmount = scenario.tokenAmount ∧ better.tokenValue = scenario.tokenValue ∧
      better.ordersValue = scenario.ordersValue := by
  have charge_eq : better.ordersValue = scenario.ordersValue :=
    Except.ok.inj (other_fills.charge.symm.trans fills.charge)
  refine ⟨?_, ?_, charge_eq⟩
  · exact Fixed.ext (other_fills.tokenAmount.trans fills.tokenAmount.symm)
  · apply Fixed.ext
    rw [other_fills.tokenValue, fills.tokenValue, charge_eq]

theorem Fills.freeCollateral_initial_le (valid : market.Valid)
    (stricter : market.InitiallyStricter)
    (fills : standard.Fills amount value side size price market .initial scenario)
    (other_fills : standard.Fills amount value side size price market .maintenance better) :
    scenario.freeCollateral.toInt ≤ better.freeCollateral.toInt := by
  obtain ⟨amount_eq, value_eq, charge_eq⟩ := fills.same_outcome other_fills
  have other_weighs := other_fills.weighs
  rw [amount_eq, value_eq] at other_weighs
  have weighted := fills.weighs.value_initial_le valid stricter other_weighs
  rw [le_iff] at weighted
  rw [fills.freeCollateral, other_fills.freeCollateral, charge_eq]
  exact Int.add_le_add_right weighted _

/-- In a valid market whose initial weights are no looser than its maintenance weights, the worst
case of a position contributes no more for opening than for keeping. -/
theorem freeCollateral_initial_le_maintenance (valid : market.Valid)
    (stricter : market.InitiallyStricter)
    (initial_returned : (standard.worstCase position market price .initial).result = .ok scenario)
    (maintenance_returned :
      (standard.worstCase position market price .maintenance).result = .ok better) :
    scenario.freeCollateral ≤ better.freeCollateral := by
  obtain ⟨amount, value, appraised, bids, asks, bids_fill, asks_fill, minimum⟩ :=
    worstCase_fills (standard_tokenValue_zero _ _) initial_returned
  obtain ⟨_, _, same, _, _, other_bids_fill, other_asks_fill, other_minimum⟩ :=
    worstCase_fills (standard_tokenValue_zero _ _) maintenance_returned
  rw [appraised] at same
  cases same
  rw [le_iff, minimum, other_minimum]
  exact min_le_min (bids_fill.freeCollateral_initial_le valid stricter other_bids_fill)
    (asks_fill.freeCollateral_initial_le valid stricter other_asks_fill)

/-- A holding with orders on both sides, whose worst case is the fill of the bids for opening, with
a derated weight, and the fill of the asks for keeping. -/
theorem freeCollateral_initial_le_where_sides_differ :
    ∃ market : Market, ∃ scenario better,
      market.Valid ∧ market.InitiallyStricter ∧
      (standard.worstCase
        { scaledBalance := 10000000001, openBids := 50000000, openAsks := 20000000 }
        market { current := 10000000, twap := some 10500000 } .initial).result = .ok scenario ∧
      (standard.worstCase
        { scaledBalance := 10000000001, openBids := 50000000, openAsks := 20000000 }
        market { current := 10000000, twap := some 10500000 } .maintenance).result = .ok better ∧
      scenario.freeCollateral ≤ better.freeCollateral := by
  refine ⟨{
    depositBalance := 5000000000000, initialAssetWeight := 8000, maintenanceAssetWeight := 9000
    initialLiabilityWeight := 12000, maintenanceLiabilityWeight := 11000
    imfFactor := 10000, scaleStart := 10000000000 }, {
    tokenAmount := 60000000, ordersValue := -525000000, tokenValue := 625000000
    weight := 1600, weightedTokenValue := 100000000, freeCollateral := -425000000 }, {
    tokenAmount := -10000000, ordersValue := -210000000, tokenValue := -110000000
    weight := 11206, weightedTokenValue := -123266000, freeCollateral := -333266000 }, ?_⟩
  refine (fun valid returned better => ⟨valid, ⟨by decide, by decide⟩, returned, better,
    freeCollateral_initial_le_maintenance valid ⟨by decide, by decide⟩ returned better⟩) ?_ ?_ ?_
      <;> decide +kernel

end MarketMath
end SpotMargin
