import SpotMargin.Proofs.Outcome
import SpotMargin.Proofs.Scenario.Weighting
import SpotMargin.Scenario

/-!
# The steps of a valuation

What a valuation has done once it returns, for any conversions and any weight curves.  `Weighs`,
`Unfilled` and `Fills` collect the facts of each kind of step over the integers, and
`worstCase_cases` says which of them make up a worst case.
-/

namespace SpotMargin

open Fixed

/-- The weighting that two results give, where a result that is missing or out of bounds is replaced
by a bound. -/
def Weighting.ofResults (asset liability : Except Error Fixed) : Weighting where
  asset := match asset with
    | .ok weight => max 0 (min weight.toInt 10000)
    | .error _ => 0
  liability := match liability with
    | .ok weight => max weight.toInt 10000
    | .error _ => 10000
  asset_nonneg := by split <;> omega
  asset_le_one := by split <;> omega
  one_le_liability := by split <;> omega

theorem Weighting.asset_ofResults {asset liability : Except Error Fixed} {weight : Fixed}
    (asset_eq : asset = .ok weight) (weight_nonneg : 0 ≤ weight.toInt)
    (weight_le : weight.toInt ≤ 10000) :
    (Weighting.ofResults asset liability).asset = weight.toInt := by
  subst asset_eq
  simp only [ofResults]
  omega

theorem Weighting.liability_ofResults {asset liability : Except Error Fixed} {weight : Fixed}
    (liability_eq : liability = .ok weight) (one_le : 10000 ≤ weight.toInt) :
    (Weighting.ofResults asset liability).liability = weight.toInt := by
  subst liability_eq
  simp only [ofResults]
  omega

namespace OrderSide

/-- The direction in which an order moves the amount of tokens. -/
def sign : OrderSide → Int
  | .bid => 1
  | .ask => -1

/-- The amount once orders of the given size have been filled. -/
def fillAmount (amount size : Fixed) : OrderSide → Except Error Fixed
  | .bid => checkedAdd amount size
  | .ask => checkedSub amount size

/-- The value of the amount once orders of the given value have been filled. -/
def fillValue (value ordersValue : Fixed) : OrderSide → Except Error Fixed
  | .bid => checkedSub value ordersValue
  | .ask => checkedAdd value ordersValue

variable {side : OrderSide} {amount size value ordersValue result : Fixed}

theorem fillAmount_eq_ok_iff :
    side.fillAmount amount size = .ok result ↔
      result.toInt = amount.toInt + side.sign * size.toInt := by
  cases side with
  | bid => simp [fillAmount, sign, checkedAdd_eq_ok_iff]
  | ask => simp [fillAmount, sign, checkedSub_eq_ok_iff, Int.sub_eq_add_neg]

theorem fillValue_eq_ok_iff :
    side.fillValue value ordersValue = .ok result ↔
      result.toInt = value.toInt - side.sign * ordersValue.toInt := by
  cases side with
  | bid => simp [fillValue, sign, checkedSub_eq_ok_iff]
  | ask => simp [fillValue, sign, checkedAdd_eq_ok_iff]

end OrderSide

namespace MarketMath

variable {math : MarketMath} {market : Market} {category : MarginCategory} {price : StrictPrice}
  {amount value size : Fixed} {side : OrderSide} {scenario : Scenario}

/-- The weight is the one that applies to the sign of the value, within its bounds, and the weighted
value is exact. -/
structure Weighs (math : MarketMath) (amount value price : Fixed) (market : Market)
    (category : MarginCategory) (weighted : WeightedValue) : Prop where
  asset : 0 ≤ value.toInt → math.assetWeight amount price market category = .ok weighted.weight
  liability : value.toInt < 0 →
    (checkedAbs amount >>= fun magnitude => math.liabilityWeight magnitude market category) =
      .ok weighted.weight
  fraction : 0 ≤ value.toInt → 0 ≤ weighted.weight.toInt ∧ weighted.weight.toInt ≤ 10000
  multiple : value.toInt < 0 → 10000 ≤ weighted.weight.toInt
  exact : weighted.value.toInt = (value.toInt * weighted.weight.toInt).tdiv 10000

theorem boundedAssetWeight_eq_ok {spot weight : Fixed}
    (returned : (math.boundedAssetWeight amount spot market category).result = .ok weight) :
    math.assetWeight amount spot market category = .ok weight ∧
      0 ≤ weight.toInt ∧ weight.toInt ≤ 10000 := by
  simp only [boundedAssetWeight, Logged.result_bind, Logged.result_lift, bind_eq_ok_iff] at returned
  obtain ⟨given, given_eq, checked⟩ := returned
  split at checked
  · cases checked
  · rename_i bounds
    cases checked
    rw [lt_iff, lt_iff, toInt_zero, Precision.toInt_weight] at bounds
    exact ⟨given_eq, by omega, by omega⟩

theorem boundedLiabilityWeight_eq_ok {weight : Fixed}
    (returned : (math.boundedLiabilityWeight amount market category).result = .ok weight) :
    math.liabilityWeight amount market category = .ok weight ∧ 10000 ≤ weight.toInt := by
  simp only [boundedLiabilityWeight, Logged.result_bind, Logged.result_lift,
    bind_eq_ok_iff] at returned
  obtain ⟨given, given_eq, checked⟩ := returned
  split at checked
  · cases checked
  · rename_i bound
    cases checked
    rw [lt_iff, Precision.toInt_weight] at bound
    exact ⟨given_eq, by omega⟩

theorem weighs_of_eq_ok {spot : Fixed} {weighted : WeightedValue}
    (returned : (math.weigh amount value spot market category).result = .ok weighted) :
    math.Weighs amount value spot market category weighted := by
  have exact {weight product : Fixed}
      (product_eq : mulDiv value weight Precision.weight = .ok product) :
      product.toInt = (value.toInt * weight.toInt).tdiv 10000 :=
    (mulDiv_eq_ok_iff.mp product_eq).2.2
  rw [weigh] at returned
  by_cases sign : 0 ≤ value
  · simp only [sign, if_true, Logged.result_bind, Logged.result_lift, bind_eq_ok_iff] at returned
    obtain ⟨weight, weight_eq, product, product_eq, same⟩ := returned
    cases same
    obtain ⟨given, bounds⟩ := boundedAssetWeight_eq_ok weight_eq
    rw [le_iff, toInt_zero] at sign
    exact {
      asset := fun _ => given
      liability := fun negative => absurd sign (by omega)
      fraction := fun _ => bounds
      multiple := fun negative => absurd sign (by omega)
      exact := exact product_eq }
  · simp only [sign, if_false, Logged.result_bind, Logged.result_lift, bind_eq_ok_iff] at returned
    obtain ⟨magnitude, magnitude_eq, weight, weight_eq, product, product_eq, same⟩ := returned
    cases same
    obtain ⟨given, bound⟩ := boundedLiabilityWeight_eq_ok weight_eq
    rw [le_iff, toInt_zero] at sign
    exact {
      asset := fun nonneg => absurd nonneg sign
      liability := fun _ => bind_eq_ok_iff.mpr ⟨magnitude, magnitude_eq, given⟩
      fraction := fun nonneg => absurd nonneg sign
      multiple := fun _ => bound
      exact := exact product_eq }

/-- The weighting of an amount. -/
def weighting (math : MarketMath) (amount spot : Fixed) (market : Market)
    (category : MarginCategory) : Weighting :=
  .ofResults (math.assetWeight amount spot market category)
    (checkedAbs amount >>= fun magnitude => math.liabilityWeight magnitude market category)

/-- Every value of the amount that can be weighed is weighed by the weighting. -/
def Applies (math : MarketMath) (spot : Fixed) (market : Market) (category : MarginCategory)
    (amount : Fixed) (weighting : Weighting) : Prop :=
  ∀ value weighted, math.Weighs amount value spot market category weighted →
    weighted.value.toInt = weighting.apply value.toInt

theorem Weighs.value_eq_ofResults {spot : Fixed} {weighted : WeightedValue}
    {asset liability : Except Error Fixed}
    (weighs : math.Weighs amount value spot market category weighted)
    (asset_eq : 0 ≤ value.toInt → asset = .ok weighted.weight)
    (liability_eq : value.toInt < 0 → liability = .ok weighted.weight) :
    weighted.value.toInt = (Weighting.ofResults asset liability).apply value.toInt := by
  rw [weighs.exact, Weighting.apply]
  split <;> rename_i sign
  · obtain ⟨weight_nonneg, weight_le⟩ := weighs.fraction sign
    rw [Weighting.asset_ofResults (asset_eq sign) weight_nonneg weight_le]
  · rw [not_le] at sign
    rw [Weighting.liability_ofResults (liability_eq sign) (weighs.multiple sign)]

theorem applies_weighting (math : MarketMath) (amount spot : Fixed) (market : Market)
    (category : MarginCategory) :
    math.Applies spot market category amount (math.weighting amount spot market category) :=
  fun _ _ weighs => weighs.value_eq_ofResults weighs.asset weighs.liability

/-- The scenario applies the weight to its value and charges the orders to the outcome. -/
structure Settles (math : MarketMath) (spot : Fixed) (market : Market)
    (category : MarginCategory) (scenario : Scenario) : Prop where
  weighs : math.Weighs scenario.tokenAmount scenario.tokenValue spot market category
    { weight := scenario.weight, value := scenario.weightedTokenValue }
  freeCollateral : scenario.freeCollateral.toInt =
    scenario.weightedTokenValue.toInt + scenario.ordersValue.toInt

/-- The scenario is the amount and the value as they are. -/
structure Unfilled (math : MarketMath) (amount value spot : Fixed) (market : Market)
    (category : MarginCategory) (scenario : Scenario) : Prop
    extends math.Settles spot market category scenario where
  tokenAmount : scenario.tokenAmount = amount
  tokenValue : scenario.tokenValue = value
  ordersValue : scenario.ordersValue = 0

/-- The scenario is the amount and the value after the orders of one side have been filled. -/
structure Fills (math : MarketMath) (amount value : Fixed) (side : OrderSide) (size : Fixed)
    (price : StrictPrice) (market : Market) (category : MarginCategory) (scenario : Scenario) : Prop
    extends math.Settles price.current market category scenario where
  size_nonneg : 0 ≤ size.toInt
  charge : (checkedNeg size >>= fun removed =>
    math.tokenValue removed market.decimals price.upper) = .ok scenario.ordersValue
  tokenAmount : scenario.tokenAmount.toInt = amount.toInt + side.sign * size.toInt
  tokenValue : scenario.tokenValue.toInt = value.toInt - side.sign * scenario.ordersValue.toInt

theorem unfilled_of_eq_ok
    (returned : (math.valueUnfilled amount value price market category).result = .ok scenario) :
    math.Unfilled amount value price.current market category scenario := by
  simp only [valueUnfilled, Logged.result_bind, bind_eq_ok_iff] at returned
  obtain ⟨weighted, weighted_eq, same⟩ := returned
  cases same
  exact {
    weighs := weighs_of_eq_ok weighted_eq
    freeCollateral := (Int.add_zero _).symm
    tokenAmount := rfl
    tokenValue := rfl
    ordersValue := rfl }

/-- The fill of a side, in one sequence for both sides. -/
theorem valueFilled_eq (math : MarketMath) (amount value : Fixed) (side : OrderSide) (size : Fixed)
    (price : StrictPrice) (market : Market) (category : MarginCategory) :
    math.valueFilled amount value side size price market category =
      if size < 0 then
        Logged.ofExcept (.error (.argument .negativeOrderSize))
      else do
        let ordersValue ← math.tokenValue (← checkedNeg size) market.decimals price.upper
        let filledAmount ← side.fillAmount amount size
        let filledValue ← side.fillValue value ordersValue
        let weighted ← math.weigh filledAmount filledValue price.current market category
        return {
          tokenAmount := filledAmount
          ordersValue
          tokenValue := filledValue
          weight := weighted.weight
          weightedTokenValue := weighted.value
          freeCollateral := ← checkedAdd weighted.value ordersValue
        } := by
  cases side <;> rfl

theorem fills_of_eq_ok
    (returned : (math.valueFilled amount value side size price market category).result =
      .ok scenario) :
    math.Fills amount value side size price market category scenario := by
  rw [valueFilled_eq] at returned
  split at returned
  · cases returned
  · rename_i size_nonneg
    rw [lt_iff, toInt_zero, not_lt] at size_nonneg
    simp only [Logged.result_bind, Logged.result_lift, bind_eq_ok_iff] at returned
    obtain ⟨removed, removed_eq, ordersValue, charge, filledAmount, amount_eq, filledValue,
      value_eq, weighted, weighted_eq, contribution, contribution_eq, same⟩ := returned
    cases same
    exact {
      weighs := weighs_of_eq_ok weighted_eq
      freeCollateral := checkedAdd_eq_ok_iff.mp contribution_eq
      size_nonneg
      charge := bind_eq_ok_iff.mpr ⟨removed, removed_eq, charge⟩
      tokenAmount := OrderSide.fillAmount_eq_ok_iff.mp amount_eq
      tokenValue := OrderSide.fillValue_eq_ok_iff.mp value_eq }

theorem Fills.freeCollateral_eq {weighting : Weighting}
    (fills : math.Fills amount value side size price market category scenario)
    (applies : math.Applies price.current market category scenario.tokenAmount weighting) :
    scenario.freeCollateral.toInt =
      weighting.apply (value.toInt - side.sign * scenario.ordersValue.toInt) +
        scenario.ordersValue.toInt := by
  have weighted := applies _ _ fills.weighs
  rw [fills.freeCollateral, weighted, fills.tokenValue]

theorem Fills.freeCollateral_eq_bid {weighting : Weighting}
    (fills : math.Fills amount value .bid size price market category scenario)
    (applies : math.Applies price.current market category scenario.tokenAmount weighting) :
    scenario.freeCollateral.toInt = weighting.bid value.toInt (-scenario.ordersValue.toInt) := by
  rw [fills.freeCollateral_eq applies, Weighting.bid]
  simp [OrderSide.sign, Int.sub_eq_add_neg]

theorem Fills.freeCollateral_eq_ask {weighting : Weighting}
    (fills : math.Fills amount value .ask size price market category scenario)
    (applies : math.Applies price.current market category scenario.tokenAmount weighting) :
    scenario.freeCollateral.toInt = weighting.ask value.toInt (-scenario.ordersValue.toInt) := by
  rw [fills.freeCollateral_eq applies, Weighting.ask]
  simp [OrderSide.sign]

/-- Where nothing is worth nothing, an amount without orders is a fill of size zero. -/
theorem Unfilled.fills
    (unfilled : math.Unfilled amount value price.current market category scenario)
    (worthless : math.tokenValue 0 market.decimals price.upper = .ok 0) (side : OrderSide) :
    math.Fills amount value side 0 price market category scenario where
  weighs := unfilled.weighs
  freeCollateral := unfilled.freeCollateral
  size_nonneg := le_refl 0
  charge := by
    have removed : checkedNeg 0 = .ok 0 := checkedNeg_eq_ok_iff.mpr rfl
    rw [removed, ok_bind, worthless, unfilled.ordersValue]
  tokenAmount := by
    rw [unfilled.tokenAmount, toInt_zero, Int.mul_zero, Int.add_zero]
  tokenValue := by
    rw [unfilled.tokenValue, unfilled.ordersValue, toInt_zero, Int.mul_zero, Int.sub_zero]

/-- The signed amount that a position holds, with its value at the adverse bound. -/
def appraise (math : MarketMath) (position : Position) (market : Market) (price : StrictPrice) :
    Except Error (Fixed × Fixed) := do
  let magnitude ← math.tokenAmount position.scaledBalance market position.balanceType
  let amount ← math.signedTokenAmount magnitude position.balanceType
  let value ← math.strictTokenValue amount market.decimals price
  return (amount, value)

theorem freeCollateral_select (bids asks : Scenario) :
    (Scenario.select bids asks (Scenario.worseSide bids asks)).freeCollateral.toInt =
      min bids.freeCollateral.toInt asks.freeCollateral.toInt := by
  rw [Scenario.worseSide]
  split <;> rename_i worse <;> rw [lt_iff] at worse <;> simp only [Scenario.select] <;> omega

theorem worstCase_cases {position : Position}
    (returned : (math.worstCase position market price category).result = .ok scenario) :
    position.NonNegative ∧ ∃ amount value,
      math.appraise position market price = .ok (amount, value) ∧
        (¬position.HasOpenSize ∧
            (math.valueUnfilled amount value price market category).result = .ok scenario ∨
          position.HasOpenSize ∧ ∃ bids asks,
            (math.valueFilled amount value .bid position.openBids price market category).result =
                .ok bids ∧
              (math.valueFilled amount value .ask position.openAsks price market category).result =
                  .ok asks ∧
                scenario = Scenario.select bids asks (Scenario.worseSide bids asks)) := by
  simp only [worstCase, Logged.result_bind, Logged.result_lift, bind_eq_ok_iff] at returned
  obtain ⟨_, passed, magnitude, magnitude_eq, amount, amount_eq, value, value_eq, rest⟩ := returned
  refine ⟨Position.check_eq_ok_iff.mp passed, amount, value, ?_, ?_⟩
  · simp only [appraise, bind_eq_ok_iff]
    exact ⟨magnitude, magnitude_eq, amount, amount_eq, value, value_eq, rfl⟩
  · split at rest
    · rename_i none_open
      exact .inl ⟨not_not.mpr none_open, rest⟩
    · rename_i some_open
      simp only [Logged.result_bind, Logged.result_report, bind_eq_ok_iff] at rest
      obtain ⟨bids, bids_eq, asks, asks_eq, _, _, same⟩ := rest
      cases same
      exact .inr ⟨some_open, bids, asks, bids_eq, asks_eq, rfl⟩

/-- Where nothing is worth nothing, every worst case is the lesser of two fills. -/
theorem worstCase_fills {position : Position}
    (worthless : math.tokenValue 0 market.decimals price.upper = .ok 0)
    (returned : (math.worstCase position market price category).result = .ok scenario) :
    ∃ amount value, math.appraise position market price = .ok (amount, value) ∧
      ∃ bids asks,
        math.Fills amount value .bid position.openBids price market category bids ∧
        math.Fills amount value .ask position.openAsks price market category asks ∧
        scenario.freeCollateral.toInt =
          min bids.freeCollateral.toInt asks.freeCollateral.toInt := by
  obtain ⟨-, amount, value, appraised, ⟨none_open, unfilled_eq⟩ | ⟨-, bids, asks, bids_eq,
    asks_eq, rfl⟩⟩ := worstCase_cases returned
  · obtain ⟨bids_zero, asks_zero⟩ := not_not.mp none_open
    have unfilled := unfilled_of_eq_ok unfilled_eq
    refine ⟨amount, value, appraised, scenario, scenario, ?_, ?_, (min_self _).symm⟩
    · rw [bids_zero]
      exact unfilled.fills worthless .bid
    · rw [asks_zero]
      exact unfilled.fills worthless .ask
  · exact ⟨amount, value, appraised, bids, asks, fills_of_eq_ok bids_eq, fills_of_eq_ok asks_eq,
      freeCollateral_select bids asks⟩

end MarketMath
end SpotMargin
