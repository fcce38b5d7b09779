import SpotMargin.Proofs.Scenario.Orders
import SpotMargin.Proofs.Scenario.Prices

/-!
# More orders to sell

Where the worst case fills the asks, more of them never help but through the weight of what they
leave: `freeCollateral_le_of_more_asks` bounds the rise by what a better weight adds to the value.
Without a size curve no weight improves, and once the asks cover the holding, more of them only
deepen a debt.  With a size curve the smaller holding has a better weight, and one step of the
weight can outweigh the charge for a further order: `not_freeCollateral_antitone_asks`.
-/

namespace SpotMargin

open Fixed

/-- How much the weight of the other scenario improves on the weight of this one: a greater fraction
of a value that is not negative, or a smaller multiple of a negative one. -/
def Scenario.weightGain (scenario other : Scenario) : Int :=
  if 0 ≤ other.tokenValue.toInt then
    max 0 (other.weight.toInt - scenario.weight.toInt)
  else
    max 0 (scenario.weight.toInt - other.weight.toInt)

theorem Scenario.weightGain_nonneg (scenario other : Scenario) : 0 ≤ scenario.weightGain other := by
  rw [weightGain]
  split <;> exact le_max_left _ _

namespace MarketMath

variable {math : MarketMath} {position : Position} {market : Market} {price : StrictPrice}
  {category : MarginCategory} {amount value size larger asks : Fixed} {side : OrderSide}
  {scenario fewer more : Scenario}

/-- The side that the worst case fills, if there are orders. -/
def selectedSide (math : MarketMath) (position : Position) (market : Market) (price : StrictPrice)
    (category : MarginCategory) : Except Error (Option OrderSide) :=
  if position.HasOpenSize then do
    let (amount, value) ← math.appraise position market price
    let bids ← (math.valueFilled amount value .bid position.openBids price market category).result
    let asks ← (math.valueFilled amount value .ask position.openAsks price market category).result
    return some (Scenario.worseSide bids asks)
  else
    return none

/-- The worst case is the scenario, in which the orders of the given side have been filled. -/
structure Selects (math : MarketMath) (side : OrderSide) (position : Position) (market : Market)
    (price : StrictPrice) (category : MarginCategory) (scenario : Scenario) : Prop where
  returned : (math.worstCase position market price category).result = .ok scenario
  selected : math.selectedSide position market price category = .ok (some side)

theorem Selects.fills (selects : math.Selects side position market price category scenario) :
    ∃ amount value, math.appraise position market price = .ok (amount, value) ∧
      math.Fills amount value side (position.openSize side) price market category scenario := by
  have selected := selects.selected
  obtain ⟨-, amount, value, appraised, ⟨none_open, -⟩ | ⟨some_open, bids, asks, bids_eq, asks_eq,
    rfl⟩⟩ := worstCase_cases selects.returned
  · rw [selectedSide, if_neg none_open] at selected
    cases selected
  · rw [selectedSide, if_pos some_open, appraised] at selected
    simp only [ok_bind, bids_eq, asks_eq] at selected
    cases selected
    refine ⟨amount, value, appraised, ?_⟩
    cases Scenario.worseSide bids asks with
    | bid => exact fills_of_eq_ok bids_eq
    | ask => exact fills_of_eq_ok asks_eq

theorem Fills.tokenAmount_ask
    (fill : math.Fills amount value .ask size price market category scenario) :
    scenario.tokenAmount.toInt = amount.toInt - size.toInt := by
  rw [fill.tokenAmount, OrderSide.sign]
  omega

theorem Fills.tokenValue_ask
    (fill : math.Fills amount value .ask size price market category scenario) :
    scenario.tokenValue.toInt = value.toInt + scenario.ordersValue.toInt := by
  rw [fill.tokenValue, OrderSide.sign]
  omega

/-- A larger fill of asks leaves less and is charged more. -/
structure SellsMore (fewer more : Scenario) : Prop where
  amount_le : more.tokenAmount.toInt ≤ fewer.tokenAmount.toInt
  value_le : more.tokenValue.toInt ≤ fewer.tokenValue.toInt
  ordersValue_le : more.ordersValue.toInt ≤ fewer.ordersValue.toInt

theorem Fills.sellsMore (upper_nonneg : 0 ≤ price.upper.toInt) (size_le : size ≤ larger)
    (fewer_fill : standard.Fills amount value .ask size price market category fewer)
    (more_fill : standard.Fills amount value .ask larger price market category more) :
    SellsMore fewer more := by
  have charge_le := Exact.value_mono_amount market.decimals.toNat size_le upper_nonneg
  rw [← fewer_fill.charge_eq, ← more_fill.charge_eq] at charge_le
  rw [le_iff] at size_le
  constructor
  · rw [fewer_fill.tokenAmount_ask, more_fill.tokenAmount_ask]
    omega
  · rw [fewer_fill.tokenValue_ask, more_fill.tokenValue_ask]
    omega
  · omega

/-- Once the asks cover what is held, nothing of value is left. -/
theorem value_nonpos_of_sold
    (appraised : standard.appraise position market price = .ok (amount, value))
    (upper_nonneg : 0 ≤ price.upper.toInt)
    (fill : standard.Fills amount value .ask size price market category scenario)
    (sold : scenario.tokenAmount.toInt ≤ 0) : scenario.tokenValue.toInt ≤ 0 := by
  rw [fill.tokenAmount_ask] at sold
  have covered : value.toInt ≤ -scenario.ordersValue.toInt := by
    rw [toInt_appraise appraised, fill.charge_eq]
    exact (StrictPrice.value_adverse_le _ price.lower_le_upper (Int.le_refl _)).trans
      (Exact.value_mono_amount _ (by omega) upper_nonneg)
  rw [fill.tokenValue_ask]
  omega

/-- A debt that deepens is never weighed any better. -/
theorem Weighs.value_le_of_deeper (valid : market.Valid) {greaterValue greater : Fixed}
    {spot : Fixed} {weighted heavier : WeightedValue}
    (weighs : standard.Weighs amount value spot market category weighted)
    (deeper_weighs : standard.Weighs greater greaterValue spot market category heavier)
    (amount_nonpos : amount.toInt ≤ 0) (amount_le : greater.toInt ≤ amount.toInt)
    (value_nonpos : value.toInt ≤ 0) (value_le : greaterValue.toInt ≤ value.toInt) :
    heavier.value.toInt ≤ weighted.value.toInt := by
  rw [applies_weighting _ _ _ _ _ _ _ weighs, applies_weighting _ _ _ _ _ _ _ deeper_weighs]
  set lighter := standard.weighting amount spot market category
  set deeper := standard.weighting greater spot market category
  rcases Int.lt_or_eq_of_le value_nonpos with owed | zero
  · calc
      deeper.apply greaterValue.toInt ≤ deeper.apply value.toInt := deeper.apply_mono value_le
      _ ≤ lighter.apply value.toInt := by
        apply lighter.apply_antitone_liability value_nonpos
        exact weighs.liability_le valid deeper_weighs owed (by omega) (by omega)
  · have below := deeper.apply_le greaterValue.toInt
    rw [zero, lighter.apply_zero]
    omega

/-- Quotients by the unit of weight are no further apart than their dividends, rounded up. -/
private theorem tdiv_sub_tdiv_le {product other gain : Int} (gain_nonneg : 0 ≤ gain)
    (product_le : product ≤ other + gain) :
    10000 * (product.tdiv 10000 - other.tdiv 10000) ≤ gain + 9999 := by
  have unit_sign : Int.sign 10000 = 1 := rfl
  rw [Int.tdiv_eq_ediv, Int.tdiv_eq_ediv, unit_sign]
  split <;> split <;> omega

theorem Weighs.weight_nonneg {spot : Fixed} {weighted : WeightedValue}
    (weighs : math.Weighs amount value spot market category weighted) :
    0 ≤ weighted.weight.toInt := by
  rcases Int.lt_or_le value.toInt 0 with owed | held
  · exact (by decide : (0 : Int) ≤ 10000).trans (weighs.multiple owed)
  · exact (weighs.fraction held).1

/-- The product of a value with its weight rises by no more than the gain in weight adds. -/
theorem Settles.product_le {spot : Fixed}
    (fewer_settles : math.Settles spot market category fewer)
    (value_le : more.tokenValue.toInt ≤ fewer.tokenValue.toInt) :
    more.tokenValue.toInt * more.weight.toInt ≤
      fewer.tokenValue.toInt * fewer.weight.toInt +
        |more.tokenValue.toInt| * fewer.weightGain more := by
  have weight_nonneg : 0 ≤ fewer.weight.toInt := fewer_settles.weighs.weight_nonneg
  rcases Int.lt_or_le more.tokenValue.toInt 0 with owed | held
  · rw [Scenario.weightGain, if_neg (by omega), abs_of_neg owed]
    set gain := max 0 (fewer.weight.toInt - more.weight.toInt)
    have weight_le : fewer.weight.toInt - gain ≤ more.weight.toInt := by omega
    calc
      more.tokenValue.toInt * more.weight.toInt ≤
          more.tokenValue.toInt * (fewer.weight.toInt - gain) :=
        Int.mul_le_mul_of_nonpos_left owed.le weight_le
      _ = more.tokenValue.toInt * fewer.weight.toInt + -more.tokenValue.toInt * gain := by ring
      _ ≤ fewer.tokenValue.toInt * fewer.weight.toInt + -more.tokenValue.toInt * gain :=
        Int.add_le_add_right (Int.mul_le_mul_of_nonneg_right value_le weight_nonneg) _
  · rw [Scenario.weightGain, if_pos held, abs_of_nonneg held]
    set gain := max 0 (more.weight.toInt - fewer.weight.toInt)
    have weight_le : more.weight.toInt ≤ fewer.weight.toInt + gain := by omega
    calc
      more.tokenValue.toInt * more.weight.toInt ≤
          more.tokenValue.toInt * (fewer.weight.toInt + gain) :=
        Int.mul_le_mul_of_nonneg_left weight_le held
      _ = more.tokenValue.toInt * fewer.weight.toInt + more.tokenValue.toInt * gain :=
        Int.mul_add _ _ _
      _ ≤ fewer.tokenValue.toInt * fewer.weight.toInt + more.tokenValue.toInt * gain :=
        Int.add_le_add_right (Int.mul_le_mul_of_nonneg_right value_le weight_nonneg) _

/-- What the contribution gains, together with the charge for the further orders, is no more than
the gain in weight adds to the value. -/
theorem Settles.rise_le {spot : Fixed} (fewer_settles : math.Settles spot market category fewer)
    (more_settles : math.Settles spot market category more)
    (value_le : more.tokenValue.toInt ≤ fewer.tokenValue.toInt) :
    10000 * (more.freeCollateral.toInt - fewer.freeCollateral.toInt +
        (fewer.ordersValue.toInt - more.ordersValue.toInt)) ≤
      |more.tokenValue.toInt| * fewer.weightGain more + 9999 := by
  have rise := tdiv_sub_tdiv_le
    (Int.mul_nonneg (abs_nonneg more.tokenValue.toInt) (fewer.weightGain_nonneg more))
    (fewer_settles.product_le value_le)
  rw [← fewer_settles.weighs.exact, ← more_settles.weighs.exact] at rise
  simp only at rise
  rw [fewer_settles.freeCollateral, more_settles.freeCollateral]
  omega

/-- In a valid market, and at a price with a lower bound that is not negative, more asks never
improve a worst case that fills the asks, unless the smaller holding that they leave has a better
weight.  The rise, together with the charge for the further asks, is then no more than the gain in
weight adds to the value. -/
theorem freeCollateral_le_of_more_asks (valid : market.Valid) (lower_nonneg : 0 ≤ price.lower)
    (asks_le : position.openAsks ≤ asks)
    (fewer_selected : standard.Selects .ask position market price category fewer)
    (more_selected : standard.Selects .ask (position.withOrders position.openBids asks) market price
      category more) :
    (market.imfFactor = 0 ∨ fewer.tokenAmount ≤ 0 ∨ fewer.weightGain more = 0 →
      more.freeCollateral ≤ fewer.freeCollateral) ∧
    10000 * (more.freeCollateral.toInt - fewer.freeCollateral.toInt +
        (fewer.ordersValue.toInt - more.ordersValue.toInt)) ≤
      |more.tokenValue.toInt| * fewer.weightGain more + 9999 := by
  have upper_nonneg : 0 ≤ price.upper.toInt := Int.le_trans lower_nonneg price.lower_le_upper
  obtain ⟨amount, value, appraised, fewer_fill⟩ := fewer_selected.fills
  obtain ⟨_, _, same, more_fill⟩ := more_selected.fills
  cases appraised.symm.trans same
  have sells := fewer_fill.sellsMore upper_nonneg asks_le more_fill
  have rise := fewer_fill.toSettles.rise_le more_fill.toSettles sells.value_le
  refine ⟨?_, rise⟩
  rintro (flat | sold | same_weight)
  · have applies := applies_flatWeighting flat price.current category
    rw [le_iff, fewer_fill.freeCollateral_eq_ask (applies _),
      more_fill.freeCollateral_eq_ask (applies _)]
    exact Weighting.ask_mono _ (le_refl _) (Int.neg_le_neg sells.ordersValue_le)
  · have weighted_le := fewer_fill.weighs.value_le_of_deeper valid more_fill.weighs sold
      sells.amount_le (value_nonpos_of_sold appraised upper_nonneg fewer_fill sold) sells.value_le
    rw [le_iff, fewer_fill.freeCollateral, more_fill.freeCollateral]
    exact Int.add_le_add weighted_le sells.ordersValue_le
  · rw [same_weight, Int.mul_zero] at rise
    have charged := sells.ordersValue_le
    rw [le_iff]
    omega

/-- Asks that leave a small holding, worth less than nothing at a wide price, with a better weight
than the greater holding that fewer asks leave. -/
theorem freeCollateral_le_of_asks_beyond_value :
    ∃ market : Market, ∃ fewer more,
      market.Valid ∧
      standard.Selects .ask { scaledBalance := 100000000000, openAsks := 70000000 } market
        { current := 12000000, twap := some 8000000 } .initial fewer ∧
      standard.Selects .ask
        (Position.withOrders { scaledBalance := 100000000000, openAsks := 70000000 } 0 99000000)
        market { current := 12000000, twap := some 8000000 } .initial more ∧
      10000 * (more.freeCollateral.toInt - fewer.freeCollateral.toInt +
          (fewer.ordersValue.toInt - more.ordersValue.toInt)) ≤
        |more.tokenValue.toInt| * fewer.weightGain more + 9999 := by
  refine ⟨{ imfFactor := 100000 }, {
    tokenAmount := 30000000, ordersValue := -840000000, tokenValue := -40000000
    weight := 14477, weightedTokenValue := -57908000, freeCollateral := -897908000 }, {
    tokenAmount := 1000000, ordersValue := -1188000000, tokenValue := -388000000
    weight := 10000, weightedTokenValue := -388000000, freeCollateral := -1576000000 }, ?_⟩
  refine (fun valid fewer more => ⟨valid, fewer, more, (freeCollateral_le_of_more_asks valid
    (by decide) (by decide) fewer more).2⟩) ?_ ⟨?_, ?_⟩ ⟨?_, ?_⟩ <;> decide +kernel

/-- More asks can improve a worst case that fills the asks.  One unit more of a holding of fifty
tokens sold raises its weight by one step, which is worth far more than the charge. -/
theorem not_freeCollateral_antitone_asks :
    ¬∀ (position : Position) (market : Market) (price : StrictPrice) (category : MarginCategory)
        (asks : Fixed) (fewer more : Scenario),
      market.Valid → 0 ≤ price.lower → position.openAsks ≤ asks →
      standard.Selects .ask position market price category fewer →
      standard.Selects .ask (position.withOrders position.openBids asks) market price category
        more →
      more.freeCollateral ≤ fewer.freeCollateral := by
  intro antitone
  have fallen := antitone { scaledBalance := 100000000000, openAsks := 50012978 }
    { imfFactor := 100000 } { current := 10000000 } .initial 50012979 {
      tokenAmount := 49987022, ordersValue := -500129780, tokenValue := 499870220
      weight := 6443, weightedTokenValue := 322066382, freeCollateral := -178063398 } {
      tokenAmount := 49987021, ordersValue := -500129790, tokenValue := 499870210
      weight := 6444, weightedTokenValue := 322116363, freeCollateral := -178013427 }
    (by decide +kernel) (by decide) (by decide) ⟨by decide +kernel, by decide +kernel⟩
    ⟨by decide +kernel, by decide +kernel⟩
  exact absurd fallen (by decide)

end MarketMath
end SpotMargin
