import SpotMargin.Proofs.Scenario.Standard
import SpotMargin.Proofs.Weight

/-!
# Smaller units of a token

A market can keep its tokens in a smaller unit, with more decimal places and every amount greater by
the same power of ten.  Values do not depend on the unit, and neither do the sizes that the weight
curves look at, on whichever side of nine decimal places the unit is.  So a fill in the smaller unit
is the same fill: `valueFilled_redenominated`.

All deposits together are kept as a scaled balance, which is rounded to whole units before it is
valued.  A weight that is derated by their value may therefore depend on the unit.
-/

namespace SpotMargin

open Fixed

/-- The market with its tokens in a unit that is smaller by so many decimal places. -/
def Market.redenominated (market : Market) (places : UInt32) : Market :=
  { market with decimals := market.decimals + places }

variable {market : Market} {places : UInt32} {category : MarginCategory}
  {amount finer price result finerResult : Fixed}

theorem Fixed.checkedAbs_redenominated
    (finer_eq : finer.toInt = 10 ^ places.toNat * amount.toInt)
    (returned : checkedAbs amount = .ok result)
    (finer_returned : checkedAbs finer = .ok finerResult) :
    finerResult.toInt = 10 ^ places.toNat * result.toInt := by
  rw [checkedAbs_eq_ok_iff.mp returned, checkedAbs_eq_ok_iff.mp finer_returned, finer_eq,
    Int.natAbs_mul, Int.natAbs_pow]
  norm_num

/-- Without a scale start the value of the deposits is not asked for. -/
theorem Weight.base_redenominated (unscaled : market.scaleStart = 0 ∨ category = .maintenance)
    (price : Fixed) (places : UInt32) :
    base .standard price (market.redenominated places) category =
      base .standard price market category := by
  cases category with
  | initial =>
      have start : market.scaleStart = 0 := unscaled.resolve_right (by decide)
      have finer_start : (market.redenominated places).scaleStart = 0 := start
      rw [base, base, scaledInitial, scaledInitial, if_pos start, if_pos finer_start]
      rfl
  | maintenance => rfl

variable (small : market.decimals.toNat + places.toNat ≤ 38)

namespace Market

include small in
theorem toNat_decimals_redenominated :
    (market.redenominated places).decimals.toNat = market.decimals.toNat + places.toNat := by
  have sum_lt : market.decimals.toNat + places.toNat < 2 ^ 32 := by omega
  rw [redenominated, UInt32.toNat_add, Nat.mod_eq_of_lt sum_lt]

include small in
theorem decimals_le_of_places : market.decimals ≤ 38 := by
  rw [UInt32.le_iff_toNat_le]
  exact (Nat.le_add_right _ _).trans small

include small in
theorem decimals_redenominated_le : (market.redenominated places).decimals ≤ 38 := by
  rw [UInt32.le_iff_toNat_le, toNat_decimals_redenominated small]
  exact small

end Market

include small in
theorem value_redenominated (finer_eq : finer.toInt = 10 ^ places.toNat * amount.toInt)
    (price : Int) :
    Exact.value finer.toInt (market.redenominated places).decimals.toNat price =
      Exact.value amount.toInt market.decimals.toNat price := by
  rw [finer_eq, Market.toNat_decimals_redenominated small, Exact.value_redenominated]

namespace Weight

include small in
theorem size_redenominated (finer_eq : finer.toInt = 10 ^ places.toNat * amount.toInt)
    (returned : size amount market.decimals = .ok result)
    (finer_returned : size finer (market.redenominated places).decimals = .ok finerResult) :
    finerResult = result := by
  have result_eq :=
    (ensures_size amount (Market.decimals_le_of_places small)).result_of_eq_ok returned
  have finerResult_eq :=
    (ensures_size finer (Market.decimals_redenominated_le small)).result_of_eq_ok finer_returned
  apply Fixed.ext
  rw [result_eq, finerResult_eq, finer_eq, Market.toNat_decimals_redenominated small,
    Exact.size_redenominated]

include small in
/-- The weight of a holding looks at its size only. -/
theorem asset_redenominated (unscaled : market.scaleStart = 0 ∨ category = .maintenance)
    (finer_eq : finer.toInt = 10 ^ places.toNat * amount.toInt)
    (returned : asset .standard amount price market category = .ok result)
    (finer_returned : asset .standard finer price (market.redenominated places) category =
      .ok finerResult) : finerResult = result := by
  rw [asset_eq] at returned finer_returned
  simp only [bind_eq_ok_iff] at returned finer_returned
  obtain ⟨magnitude, magnitude_eq, size, size_eq, weight, weight_eq, returned⟩ := returned
  obtain ⟨finerMagnitude, finerMagnitude_eq, finerSize, finerSize_eq, finerWeight, finerWeight_eq,
    finer_returned⟩ := finer_returned
  have magnitudes := checkedAbs_redenominated finer_eq magnitude_eq finerMagnitude_eq
  obtain rfl := size_redenominated small magnitudes size_eq finerSize_eq
  rw [base_redenominated unscaled, weight_eq] at finerWeight_eq
  cases finerWeight_eq
  exact Except.ok.inj (finer_returned.symm.trans returned)

include small in
/-- So does the weight of a debt. -/
theorem liability_redenominated (finer_eq : finer.toInt = 10 ^ places.toNat * amount.toInt)
    (returned : liability amount market category = .ok result)
    (finer_returned : liability finer (market.redenominated places) category = .ok finerResult) :
    finerResult = result := by
  have weight_eq : (market.redenominated places).liabilityWeight category =
      market.liabilityWeight category := by
    cases category <;> rfl
  rw [liability_eq] at returned finer_returned
  simp only [bind_eq_ok_iff, weight_eq] at returned finer_returned
  obtain ⟨size, size_eq, returned⟩ := returned
  obtain ⟨finerSize, finerSize_eq, finer_returned⟩ := finer_returned
  obtain rfl := size_redenominated small finer_eq size_eq finerSize_eq
  exact Except.ok.inj (finer_returned.symm.trans returned)

end Weight

namespace MarketMath

variable {value spot size finerSize : Fixed} {side : OrderSide} {strict : StrictPrice}
  {weighted finerWeighted : WeightedValue} {scenario finerScenario : Scenario}

include small in
/-- One value is weighed in one way, whatever the unit of the amount behind it. -/
theorem Weighs.redenominated (unscaled : market.scaleStart = 0 ∨ category = .maintenance)
    (finer_eq : finer.toInt = 10 ^ places.toNat * amount.toInt)
    (weighs : standard.Weighs amount value spot market category weighted)
    (finer_weighs : standard.Weighs finer value spot (market.redenominated places) category
      finerWeighted) :
    finerWeighted.weight = weighted.weight ∧ finerWeighted.value = weighted.value := by
  have weight_eq : finerWeighted.weight = weighted.weight := by
    rcases Int.lt_or_le value.toInt 0 with owed | held
    · obtain ⟨magnitude, magnitude_eq, returned⟩ := bind_eq_ok_iff.mp (weighs.liability owed)
      obtain ⟨finerMagnitude, finerMagnitude_eq, finer_returned⟩ :=
        bind_eq_ok_iff.mp (finer_weighs.liability owed)
      exact Weight.liability_redenominated small
        (checkedAbs_redenominated finer_eq magnitude_eq finerMagnitude_eq) returned finer_returned
    · exact Weight.asset_redenominated small unscaled finer_eq (weighs.asset held)
        (finer_weighs.asset held)
  refine ⟨weight_eq, Fixed.ext ?_⟩
  rw [weighs.exact, finer_weighs.exact, weight_eq]

theorem Fills.tokenAmount_redenominated
    (finer_eq : finer.toInt = 10 ^ places.toNat * amount.toInt)
    (finerSize_eq : finerSize.toInt = 10 ^ places.toNat * size.toInt)
    (fills : standard.Fills amount value side size strict market category scenario)
    (finer_fills : standard.Fills finer value side finerSize strict (market.redenominated places)
      category finerScenario) :
    finerScenario.tokenAmount.toInt = 10 ^ places.toNat * scenario.tokenAmount.toInt := by
  rw [fills.tokenAmount, finer_fills.tokenAmount, finer_eq, finerSize_eq]
  ring

include small in
theorem Fills.ordersValue_redenominated
    (finerSize_eq : finerSize.toInt = 10 ^ places.toNat * size.toInt)
    (fills : standard.Fills amount value side size strict market category scenario)
    (finer_fills : standard.Fills finer value side finerSize strict (market.redenominated places)
      category finerScenario) : finerScenario.ordersValue = scenario.ordersValue := by
  apply Fixed.ext
  rw [← Int.neg_inj, fills.charge_eq, finer_fills.charge_eq,
    value_redenominated small finerSize_eq]

/-- With more decimal places, and the amount and the orders greater by the same power of ten, a fill
has the same charge, the same value, the same weight and the same contribution; only the amount that
it leaves is greater, by that power.  The market need not be valid, but its weights must not be
derated by the value of the deposits. -/
theorem valueFilled_redenominated (small : market.decimals.toNat + places.toNat ≤ 38)
    (unscaled : market.scaleStart = 0 ∨ category = .maintenance)
    (finer_eq : finer.toInt = 10 ^ places.toNat * amount.toInt)
    (finerSize_eq : finerSize.toInt = 10 ^ places.toNat * size.toInt)
    (returned : (standard.valueFilled amount value side size strict market category).result =
      .ok scenario)
    (finer_returned : (standard.valueFilled finer value side finerSize strict
      (market.redenominated places) category).result = .ok finerScenario) :
    finerScenario.tokenAmount.toInt = 10 ^ places.toNat * scenario.tokenAmount.toInt ∧
      finerScenario = { scenario with tokenAmount := finerScenario.tokenAmount } := by
  have fills := fills_of_eq_ok returned
  have finer_fills := fills_of_eq_ok finer_returned
  have amount_eq := fills.tokenAmount_redenominated finer_eq finerSize_eq finer_fills
  have charge_eq := fills.ordersValue_redenominated small finerSize_eq finer_fills
  have value_eq : finerScenario.tokenValue = scenario.tokenValue := by
    apply Fixed.ext
    rw [fills.tokenValue, finer_fills.tokenValue, charge_eq]
  have finer_weighs := finer_fills.weighs
  rw [value_eq] at finer_weighs
  obtain ⟨weight_eq, weighted_eq⟩ :=
    fills.weighs.redenominated small unscaled amount_eq finer_weighs
  dsimp only at weight_eq weighted_eq
  have contribution_eq : finerScenario.freeCollateral = scenario.freeCollateral := by
    apply Fixed.ext
    rw [fills.freeCollateral, finer_fills.freeCollateral, weighted_eq, charge_eq]
  refine ⟨amount_eq, ?_⟩
  rw [← charge_eq, ← value_eq, ← weight_eq, ← weighted_eq, ← contribution_eq]

/-- A debt that asks deepen, in billionths of a token and in tenths of these, where the curves come
to its size on the other branch. -/
theorem valueFilled_redenominated_past_billionths :
    let market : Market := {
      decimals := 9, depositBalance := 1000000000, imfFactor := 1000
      maintenanceLiabilityWeight := 11000, scaleStart := 1 }
    let strict : StrictPrice := { current := 10000000, twap := some 10500000 }
    market.decimals.toNat + 1 ≤ 38 ∧
      ∃ scenario finerScenario,
        (standard.valueFilled (-50000000007) (-525000000) .ask 20000000003 strict market
          .maintenance).result = .ok scenario ∧
        (standard.valueFilled (-500000000070) (-525000000) .ask 200000000030 strict
          (market.redenominated 1) .maintenance).result = .ok finerScenario ∧
        scenario.tokenAmount = -70000000010 ∧ scenario.weight = 11072 ∧
        finerScenario.tokenAmount.toInt = 10 * scenario.tokenAmount.toInt ∧
        finerScenario = { scenario with tokenAmount := finerScenario.tokenAmount } := by
  intro market strict
  have small : market.decimals.toNat + (1 : UInt32).toNat ≤ 38 := by decide
  have returned : (standard.valueFilled (-50000000007) (-525000000) .ask 20000000003 strict market
      .maintenance).result = .ok {
        tokenAmount := -70000000010, ordersValue := -210000000, tokenValue := -735000000
        weight := 11072, weightedTokenValue := -813792000, freeCollateral := -1023792000 } := by
    decide +kernel
  have finer_returned : (standard.valueFilled (-500000000070) (-525000000) .ask 200000000030 strict
      (market.redenominated 1) .maintenance).result = .ok {
        tokenAmount := -700000000100, ordersValue := -210000000, tokenValue := -735000000
        weight := 11072, weightedTokenValue := -813792000, freeCollateral := -1023792000 } := by
    decide +kernel
  obtain ⟨amount_eq, same⟩ := valueFilled_redenominated small (.inr rfl) (by decide +kernel)
    (by decide +kernel) returned finer_returned
  exact ⟨small, _, _, returned, finer_returned, rfl, rfl, amount_eq, same⟩

end MarketMath
end SpotMargin
