import SpotMargin.Proofs.Scenario.Steps
import SpotMargin.Proofs.Unbounded.Market

/-!
# Valuations never wrap

Whenever a valuation returns, its scenario is the evaluation over unbounded integers, whatever the
conversions and weight curves are.  `arithmetic_never_wraps` collects this with the same statements
about arithmetic, conversions and weight curves.
-/

namespace SpotMargin

open Fixed Unbounded

/-- The weighted value over the integers. -/
def WeightedValue.toIntegers (weighted : WeightedValue) : Unbounded.WeightedValue where
  weight := weighted.weight.toInt
  value := weighted.value.toInt

/-- The scenario over the integers. -/
def Scenario.toIntegers (scenario : Scenario) : Unbounded.Scenario where
  tokenAmount := scenario.tokenAmount.toInt
  ordersValue := scenario.ordersValue.toInt
  tokenValue := scenario.tokenValue.toInt
  weight := scenario.weight.toInt
  weightedTokenValue := scenario.weightedTokenValue.toInt
  freeCollateral := scenario.freeCollateral.toInt

namespace OrderSide

theorem computes_fillAmount (side : OrderSide) (amount size : Fixed) :
    Fixed.Computes (side.fillAmount amount size)
      (some (Unbounded.fillAmount amount.toInt size.toInt side)) := by
  cases side with
  | bid => exact computes_checkedAdd amount size
  | ask => exact computes_checkedSub amount size

theorem computes_fillValue (side : OrderSide) (value ordersValue : Fixed) :
    Fixed.Computes (side.fillValue value ordersValue)
      (some (Unbounded.fillValue value.toInt ordersValue.toInt side)) := by
  cases side with
  | bid => exact computes_checkedSub value ordersValue
  | ask => exact computes_checkedAdd value ordersValue

end OrderSide

namespace MarketMath

variable {math : MarketMath} {evaluation : Unbounded.MarketMath}

theorem Follows.computes_boundedAssetWeight (follows : math.Follows evaluation)
    (amount price : Fixed) (market : Market) (category : MarginCategory) :
    Fixed.Computes (math.boundedAssetWeight amount price market category).result
      (evaluation.assetWeight amount.toInt price.toInt market category) := by
  intro weight returned
  obtain ⟨given, -⟩ := boundedAssetWeight_eq_ok returned
  exact follows.assetWeight amount price market category weight given

theorem Follows.computes_boundedLiabilityWeight (follows : math.Follows evaluation)
    (amount : Fixed) (market : Market) (category : MarginCategory) :
    Fixed.Computes (math.boundedLiabilityWeight amount market category).result
      (evaluation.liabilityWeight amount.toInt market category) := by
  intro weight returned
  obtain ⟨given, -⟩ := boundedLiabilityWeight_eq_ok returned
  exact follows.liabilityWeight amount market category weight given

theorem Follows.computes_weigh (follows : math.Follows evaluation) (amount value price : Fixed)
    (market : Market) (category : MarginCategory) :
    Computes WeightedValue.toIntegers (math.weigh amount value price market category).result
      (evaluation.weigh? amount.toInt value.toInt price.toInt market category) := by
  have apply (weight : Fixed) : Computes WeightedValue.toIntegers
      (do return { weight, value := ← mulDiv value weight Precision.weight } :
        Logged WeightedValue).result
      (do return { weight := weight.toInt, value := ← mulDiv? value.toInt weight.toInt (10 ^ 4) } :
        Option Unbounded.WeightedValue) :=
    .logged_bind (computes_mulDiv value weight Precision.weight) fun product =>
      .ok (⟨weight, product⟩ : WeightedValue)
  rw [weigh, Unbounded.MarketMath.weigh?]
  by_cases sign : 0 ≤ value
  · have evaluated : 0 ≤ value.toInt := sign
    simp only [sign, evaluated, if_true]
    exact .logged_bind (follows.computes_boundedAssetWeight amount price market category) apply
  · have evaluated : ¬0 ≤ value.toInt := sign
    simp only [sign, evaluated, if_false]
    refine .logged_step (computes_checkedAbs amount) ?_
    intro magnitude magnitude_eq
    rw [← magnitude_eq]
    exact .logged_bind (follows.computes_boundedLiabilityWeight magnitude market category) apply

theorem Follows.computes_valueUnfilled (follows : math.Follows evaluation) (amount value : Fixed)
    (price : StrictPrice) (market : Market) (category : MarginCategory) :
    Computes Scenario.toIntegers (math.valueUnfilled amount value price market category).result
      (evaluation.valueUnfilled? amount.toInt value.toInt price market category) :=
  .logged_bind (follows.computes_weigh amount value price.current market category) fun _ => .ok _

theorem Follows.computes_valueFilled (follows : math.Follows evaluation) (amount value : Fixed)
    (side : OrderSide) (size : Fixed) (price : StrictPrice) (market : Market)
    (category : MarginCategory) :
    Computes Scenario.toIntegers
      (math.valueFilled amount value side size price market category).result
      (evaluation.valueFilled? amount.toInt value.toInt side size.toInt price market category) := by
  rw [valueFilled_eq]
  split
  · exact .error _
  · refine .logged_step (computes_checkedNeg size) ?_
    intro removed removed_eq
    rw [Unbounded.MarketMath.valueFilled?, ← removed_eq]
    refine .logged_bind (follows.tokenValue removed market.decimals price.upper) ?_
    intro ordersValue
    refine .logged_step (side.computes_fillAmount amount size) ?_
    intro filledAmount filledAmount_eq
    refine .logged_step (side.computes_fillValue value ordersValue) ?_
    intro filledValue filledValue_eq
    rw [← filledAmount_eq, ← filledValue_eq]
    refine .logged_bind
      (follows.computes_weigh filledAmount filledValue price.current market category) ?_
    intro weighted
    refine .logged_step (computes_checkedAdd weighted.value ordersValue) ?_
    intro contribution contribution_eq
    have scenario : Computes Scenario.toIntegers (.ok {
        tokenAmount := filledAmount
        ordersValue
        tokenValue := filledValue
        weight := weighted.weight
        weightedTokenValue := weighted.value
        freeCollateral := contribution }) _ := .ok _
    rw [Scenario.toIntegers, contribution_eq] at scenario
    exact scenario

theorem Follows.computes_worstCase (follows : math.Follows evaluation) (position : Position)
    (market : Market) (price : StrictPrice) (category : MarginCategory) :
    Computes Scenario.toIntegers (math.worstCase position market price category).result
      (evaluation.worstCase? position market price category) := by
  have passed : Computes id position.check (some ()) := fun _ _ => rfl
  refine .logged_step passed ?_
  intro _ _
  refine .logged_bind
    (follows.tokenAmount position.scaledBalance market position.balanceType) ?_
  intro magnitude
  refine .logged_bind (follows.signedTokenAmount magnitude position.balanceType) ?_
  intro amount
  refine .logged_bind (follows.strictTokenValue amount market.decimals price) ?_
  intro value
  have none_open : position.openBids = 0 ∧ position.openAsks = 0 ↔
      position.openBids.toInt = 0 ∧ position.openAsks.toInt = 0 := by
    rw [Fixed.ext_iff, Fixed.ext_iff, toInt_zero]
  rw [apply_ite Logged.result]
  refine .ite none_open ?_ ?_
  · intro _
    exact follows.computes_valueUnfilled amount value price market category
  · intro _
    refine .logged_bind (follows.computes_valueFilled amount value .bid position.openBids price
      market category) ?_
    intro bids
    refine .logged_bind (follows.computes_valueFilled amount value .ask position.openAsks price
      market category) ?_
    intro asks
    have reported {event : Log.Event} : Computes id (Logged.report event).result (some ()) :=
      .ok ()
    refine .logged_step reported ?_
    intro _ _
    rw [Scenario.worseSide, apply_ite (Scenario.select bids asks), apply_ite pure,
      apply_ite Logged.result]
    exact .ite Iff.rfl (fun _ => .ok asks) fun _ => .ok bids

/-- Whenever a valuation returns, its result is the evaluation over unbounded integers. -/
structure NeverWraps (math : MarketMath) (evaluation : Unbounded.MarketMath) : Prop where
  weigh (amount value price : Fixed) (market : Market) (category : MarginCategory) :
    Computes WeightedValue.toIntegers (math.weigh amount value price market category).result
      (evaluation.weigh? amount.toInt value.toInt price.toInt market category)
  valueFilled (amount value : Fixed) (side : OrderSide) (size : Fixed) (price : StrictPrice)
    (market : Market) (category : MarginCategory) :
    Computes Scenario.toIntegers
      (math.valueFilled amount value side size price market category).result
      (evaluation.valueFilled? amount.toInt value.toInt side size.toInt price market category)
  worstCase (position : Position) (market : Market) (price : StrictPrice)
    (category : MarginCategory) :
    Computes Scenario.toIntegers (math.worstCase position market price category).result
      (evaluation.worstCase? position market price category)

theorem Follows.neverWraps (follows : math.Follows evaluation) : math.NeverWraps evaluation where
  weigh := follows.computes_weigh
  valueFilled := follows.computes_valueFilled
  worstCase := follows.computes_worstCase

/-- Whatever returns, be it an operation, a conversion, a weight or a valuation, and in a valid
market or not, returns the evaluation over unbounded integers.  The steps that the standard
conversions and curves leave unchecked would all pass a check. -/
theorem arithmetic_never_wraps :
    Fixed.NeverWraps ∧ Weight.NeverWraps ∧ standard.Follows .standard ∧ standard = checked ∧
      ∀ math : MarketMath, math.Follows math.onIntegers ∧
        ∀ evaluation, math.Follows evaluation → math.NeverWraps evaluation := by
  refine ⟨Fixed.neverWraps, Weight.neverWraps, standard_follows, standard_eq_checked, ?_⟩
  intro math
  exact ⟨math.follows_onIntegers, fun _ follows => follows.neverWraps⟩

/-- A debt with orders on both sides, in a market that is not valid and with a weight so large that
its product with the value nearly leaves the range. -/
theorem worstCase_never_wraps_near_the_end :
    ∃ market : Market, ∃ scenario,
      ¬market.Valid ∧
      (standard.worstCase
        { scaledBalance := 100000000001, balanceType := .borrow, openBids := 30000000,
          openAsks := 50000000 }
        market { current := 10000000, twap := some 10500000 } .initial).result = .ok scenario ∧
      Unbounded.MarketMath.standard.worstCase?
        { scaledBalance := 100000000001, balanceType := .borrow, openBids := 30000000,
          openAsks := 50000000 }
        market { current := 10000000, twap := some 10500000 } .initial =
          some scenario.toIntegers := by
  refine ⟨{
    initialAssetWeight := -1, imfFactor := 10000
    initialLiabilityWeight := 108000000000000000000000000000 }, {
    tokenAmount := -150000001, ordersValue := -525000000, tokenValue := -1575000010
    weight := 108000000000000000000000000000
    weightedTokenValue := -17010000108000000000000000000000000
    freeCollateral := -17010000108000000000000000525000000 }, ?_⟩
  refine (fun invalid returned => ⟨invalid, returned,
    ((arithmetic_never_wraps.2.2.2.2 standard).2 _ standard_follows).worstCase _ _ _ _ _
      returned⟩) ?_ ?_ <;> decide +kernel

end MarketMath
end SpotMargin
