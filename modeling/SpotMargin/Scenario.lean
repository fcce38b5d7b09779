import SpotMargin.Log.Logged
import SpotMargin.Weight

/-!
# Worst-case valuation

A scenario is the valuation of a position as it is, or as if all its resting orders on one side had
been filled.  The worst case of a position is the scenario that contributes less to the free
collateral of the account.
-/

namespace SpotMargin

/-- The valuation of a position in one scenario: amount and value of the tokens after the fill, both
negative when owed, the charge for the filled orders, and what the position adds to the free
collateral of its account. -/
structure Scenario where
  tokenAmount : Fixed := 0
  ordersValue : Fixed := 0
  tokenValue : Fixed := 0
  weight : Fixed := 0
  weightedTokenValue : Fixed := 0
  freeCollateral : Fixed := 0
  deriving DecidableEq, Inhabited

/-- A value with its weight applied. -/
structure WeightedValue where
  weight : Fixed
  value : Fixed
  deriving DecidableEq

namespace MarketMath

/-- The asset weight, which has to lie between zero and one. -/
def boundedAssetWeight (math : MarketMath) (amount price : Fixed) (market : Market)
    (category : MarginCategory) : Logged Fixed := do
  let weight ← math.assetWeight amount price market category
  if weight < 0 ∨ Precision.weight < weight then
    Logged.reject (.weightRejected market.index (.asset weight)) (.weight (.asset weight))
  else
    return weight

/-- The liability weight, which has to be at least one. -/
def boundedLiabilityWeight (math : MarketMath) (amount : Fixed) (market : Market)
    (category : MarginCategory) : Logged Fixed := do
  let weight ← math.liabilityWeight amount market category
  if weight < Precision.weight then
    Logged.reject (.weightRejected market.index (.liability weight)) (.weight (.liability weight))
  else
    return weight

/-- The value of an amount with its weight applied: the asset weight when the value is not
negative, and otherwise the liability weight. -/
def weigh (math : MarketMath) (amount value price : Fixed) (market : Market)
    (category : MarginCategory) : Logged WeightedValue := do
  let weight ←
    if 0 ≤ value then
      math.boundedAssetWeight amount price market category
    else do
      math.boundedLiabilityWeight (← Fixed.checkedAbs amount) market category
  return { weight, value := ← Fixed.mulDiv value weight Precision.weight }

/-- The valuation of an amount as it is, without any orders. -/
def valueUnfilled (math : MarketMath) (amount value : Fixed) (price : StrictPrice)
    (market : Market) (category : MarginCategory) : Logged Scenario := do
  let weighted ← math.weigh amount value price.current market category
  return {
    tokenAmount := amount
    ordersValue := 0
    tokenValue := value
    weight := weighted.weight
    weightedTokenValue := weighted.value
    freeCollateral := weighted.value
  }

/-- The valuation of an amount as if orders of the given size on one side had been filled.  On both
sides the orders are priced at the upper bound, and their value is charged to the scenario. -/
def valueFilled (math : MarketMath) (amount value : Fixed) (side : OrderSide) (size : Fixed)
    (price : StrictPrice) (market : Market) (category : MarginCategory) : Logged Scenario :=
  if size < 0 then
    Logged.ofExcept (.error (.argument .negativeOrderSize))
  else do
    let ordersValue ← math.tokenValue (← Fixed.checkedNeg size) market.decimals price.upper
    let filledAmount ←
      match side with
      | .bid => Fixed.checkedAdd amount size
      | .ask => Fixed.checkedSub amount size
    let filledValue ←
      match side with
      | .bid => Fixed.checkedSub value ordersValue
      | .ask => Fixed.checkedAdd value ordersValue
    let weighted ← math.weigh filledAmount filledValue price.current market category
    return {
      tokenAmount := filledAmount
      ordersValue
      tokenValue := filledValue
      weight := weighted.weight
      weightedTokenValue := weighted.value
      freeCollateral := ← Fixed.checkedAdd weighted.value ordersValue
    }

end MarketMath

/-- The side whose scenario contributes less; the side of the bids when both contribute the same. -/
def Scenario.worseSide (bids asks : Scenario) : OrderSide :=
  if asks.freeCollateral < bids.freeCollateral then .ask else .bid

def Scenario.select (bids asks : Scenario) : OrderSide → Scenario
  | .bid => bids
  | .ask => asks

namespace MarketMath

/-- The worst case of a position: of the scenarios in which all its bids or all its asks are filled,
the one that contributes less, or the valuation as it is when there are no orders. -/
def worstCase (math : MarketMath) (position : Position) (market : Market) (price : StrictPrice)
    (category : MarginCategory) : Logged Scenario := do
  position.check
  let amount ← math.signedTokenAmount
    (← math.tokenAmount position.scaledBalance market position.balanceType) position.balanceType
  let value ← math.strictTokenValue amount market.decimals price
  if position.openBids = 0 ∧ position.openAsks = 0 then
    math.valueUnfilled amount value price market category
  else do
    let bids ← math.valueFilled amount value .bid position.openBids price market category
    let asks ← math.valueFilled amount value .ask position.openAsks price market category
    let side := Scenario.worseSide bids asks
    Logged.report
      (.sideSelected market.index category bids.freeCollateral asks.freeCollateral side)
    return Scenario.select bids asks side

end MarketMath
end SpotMargin
