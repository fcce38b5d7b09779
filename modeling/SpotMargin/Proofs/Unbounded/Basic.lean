import Mathlib.Algebra.Ring.Int.Defs
import SpotMargin.Scenario

/-!
# Evaluation over unbounded integers

The same arithmetic, conversions, weight curves and scenarios as on fixed-point integers, evaluated
over integers of any size.  Nothing leaves a range here; only a division by zero and the square root
of a negative number have no value.  Divisions truncate toward zero.
-/

namespace SpotMargin
namespace Unbounded

/-- Quotient, truncated toward zero. -/
def div? (a b : Int) : Option Int :=
  if b = 0 then none else some (a.tdiv b)

/-- Quotient, truncated toward zero and then raised by one when there is a remainder. -/
def divCeil? (a b : Int) : Option Int := do
  let quotient ← div? a b
  if quotient * b = a then return quotient else return quotient + 1

/-- `a * b / c`, truncated toward zero. -/
def mulDiv? (a b c : Int) : Option Int :=
  div? (a * b) c

/-- Newton's iteration: the candidate follows `current` while it is below it. -/
def newton (radicand current candidate : Nat) : Nat :=
  if candidate < current then
    newton radicand candidate ((radicand / candidate + candidate) / 2)
  else
    current

/-- Square root by Newton's iteration, from half of the radicand plus one. -/
def isqrt? (radicand : Int) : Option Int :=
  if radicand < 0 then
    none
  else if radicand < 2 then
    some radicand
  else
    let natural := radicand.toNat
    some (newton natural natural (natural / 2 + 1))

/-- The tokens that a scaled balance stands for. -/
def tokenAmount? (balance : Int) (market : Market) (type : BalanceType) : Option Int :=
  let scale := 10 ^ (19 - market.decimals.toNat)
  match type with
  | .deposit => mulDiv? balance market.depositInterest.toInt scale
  | .borrow => divCeil? (balance * market.borrowInterest.toInt) scale

/-- The amount with a sign: what is owed counts as negative. -/
def signedAmount (amount : Int) : BalanceType → Int
  | .deposit => amount
  | .borrow => -amount.natAbs

/-- The value of a signed amount of tokens at a price. -/
def tokenValue? (amount : Int) (decimals : UInt32) (price : Int) : Option Int :=
  if amount = 0 then some 0 else mulDiv? amount price (10 ^ decimals.toNat)

/-- The value of a signed amount of tokens at the adverse bound of a strict price. -/
def strictTokenValue? (amount : Int) (decimals : UInt32) (price : StrictPrice) : Option Int :=
  tokenValue? amount decimals (if 0 < amount then price.lower.toInt else price.upper.toInt)

/-- Ways to turn a balance into an amount of tokens, and an amount into a value. -/
structure Conversion where
  tokenAmount : Int → Market → BalanceType → Option Int
  signedTokenAmount : Int → BalanceType → Option Int
  tokenValue : Int → UInt32 → Int → Option Int
  strictTokenValue : Int → UInt32 → StrictPrice → Option Int

/-- The conversions of interest-indexed balances. -/
def Conversion.standard : Conversion where
  tokenAmount := tokenAmount?
  signedTokenAmount amount type := some (signedAmount amount type)
  tokenValue := tokenValue?
  strictTokenValue := strictTokenValue?

/-- The size of an amount of tokens as the curves look at it, in billionths of a token. -/
def size? (amount : Int) (decimals : UInt32) : Option Int :=
  let unit : Int := 10 ^ decimals.toNat
  if 10 ^ 9 < unit then do
    div? amount (← div? unit (10 ^ 9))
  else
    mulDiv? amount (10 ^ 9) unit

/-- The term of the size in both curves. -/
def sizeRoot? (size : Int) : Option Int :=
  isqrt? (size * 10 + 1)

/-- The asset weight after the discount for size. -/
def discounted? (size imfFactor weight : Int) : Option Int :=
  if imfFactor = 0 then
    some weight
  else do
    let root ← sizeRoot? size
    let share ← div? (root * imfFactor) 100000
    let tenth ← div? (10 ^ 6) 10
    let limit ← mulDiv? (10 ^ 6 + tenth) (10 ^ 4) (10 ^ 6 + share)
    return min weight limit

/-- The liability weight after the premium for size, where `one` is the unit of the weight. -/
def withPremium? (size imfFactor weight one : Int) : Option Int :=
  if imfFactor = 0 then
    some weight
  else do
    let quotient ← div? (10 ^ 6) imfFactor
    let share ← div? weight (max 1 quotient)
    let unit ← div? (100000 * 10 ^ 6) one
    let root ← sizeRoot? size
    let growth ← div? (root * imfFactor) unit
    return max weight (weight - share + growth)

/-- The initial asset weight of the market, derated in proportion once the value of all deposits
reaches the scale start. -/
def scaledInitial? (conversion : Conversion) (market : Market) (price : Int) : Option Int :=
  if market.scaleStart.toInt = 0 then
    some market.initialAssetWeight.toInt
  else do
    let deposits ← conversion.tokenAmount market.depositBalance.toInt market .deposit
    let value ← conversion.tokenValue deposits market.decimals price
    if value < market.scaleStart.toInt then
      return market.initialAssetWeight.toInt
    else
      mulDiv? market.initialAssetWeight.toInt market.scaleStart.toInt value

/-- The asset weight of an amount of either sign. -/
def asset? (conversion : Conversion) (amount price : Int) (market : Market)
    (category : MarginCategory) : Option Int := do
  let size ← size? amount.natAbs market.decimals
  match category with
  | .initial =>
      discounted? size market.imfFactor.toInt (← scaledInitial? conversion market price)
  | .maintenance =>
      discounted? size market.imfFactor.toInt market.maintenanceAssetWeight.toInt

/-- The liability weight of a debt of the given amount. -/
def liability? (amount : Int) (market : Market) (category : MarginCategory) : Option Int := do
  let size ← size? amount market.decimals
  match category with
  | .initial =>
      withPremium? size market.imfFactor.toInt market.initialLiabilityWeight.toInt (10 ^ 4)
  | .maintenance =>
      withPremium? size market.imfFactor.toInt market.maintenanceLiabilityWeight.toInt (10 ^ 4)

/-- All that a valuation asks of a market: conversions and weights. -/
structure MarketMath extends Conversion where
  assetWeight : Int → Int → Market → MarginCategory → Option Int
  liabilityWeight : Int → Market → MarginCategory → Option Int

namespace MarketMath

/-- The weight curves over the given conversions. -/
def ofConversion (conversion : Conversion) : MarketMath where
  toConversion := conversion
  assetWeight := asset? conversion
  liabilityWeight := liability?

/-- The weight curves over the conversions of interest-indexed balances. -/
def standard : MarketMath :=
  ofConversion .standard

end MarketMath

/-- A value with its weight applied. -/
structure WeightedValue where
  weight : Int
  value : Int
  deriving DecidableEq

/-- The valuation of a position in one scenario. -/
structure Scenario where
  tokenAmount : Int
  ordersValue : Int
  tokenValue : Int
  weight : Int
  weightedTokenValue : Int
  freeCollateral : Int
  deriving DecidableEq

/-- The amount once orders of the given size have been filled. -/
def fillAmount (amount size : Int) : OrderSide → Int
  | .bid => amount + size
  | .ask => amount - size

/-- The value of the amount once orders of the given value have been filled. -/
def fillValue (value ordersValue : Int) : OrderSide → Int
  | .bid => value - ordersValue
  | .ask => value + ordersValue

namespace MarketMath

/-- The value of an amount with its weight applied. -/
def weigh? (math : MarketMath) (amount value price : Int) (market : Market)
    (category : MarginCategory) : Option WeightedValue := do
  let weight ←
    if 0 ≤ value then
      math.assetWeight amount price market category
    else
      math.liabilityWeight amount.natAbs market category
  return { weight, value := ← mulDiv? value weight (10 ^ 4) }

/-- The valuation of an amount as it is, without any orders. -/
def valueUnfilled? (math : MarketMath) (amount value : Int) (price : StrictPrice)
    (market : Market) (category : MarginCategory) : Option Scenario := do
  let weighted ← math.weigh? amount value price.current.toInt market category
  return {
    tokenAmount := amount
    ordersValue := 0
    tokenValue := value
    weight := weighted.weight
    weightedTokenValue := weighted.value
    freeCollateral := weighted.value
  }

/-- The valuation of an amount as if orders of the given size on one side had been filled. -/
def valueFilled? (math : MarketMath) (amount value : Int) (side : OrderSide) (size : Int)
    (price : StrictPrice) (market : Market) (category : MarginCategory) : Option Scenario := do
  let ordersValue ← math.tokenValue (-size) market.decimals price.upper.toInt
  let filledAmount := fillAmount amount size side
  let filledValue := fillValue value ordersValue side
  let weighted ← math.weigh? filledAmount filledValue price.current.toInt market category
  return {
    tokenAmount := filledAmount
    ordersValue
    tokenValue := filledValue
    weight := weighted.weight
    weightedTokenValue := weighted.value
    freeCollateral := weighted.value + ordersValue
  }

/-- The worst case of a position: the scenario that contributes less, and the one of the bids when
both contribute the same. -/
def worstCase? (math : MarketMath) (position : Position) (market : Market) (price : StrictPrice)
    (category : MarginCategory) : Option Scenario := do
  let amount ← math.signedTokenAmount
    (← math.tokenAmount position.scaledBalance.toInt market position.balanceType)
    position.balanceType
  let value ← math.strictTokenValue amount market.decimals price
  if position.openBids.toInt = 0 ∧ position.openAsks.toInt = 0 then
    math.valueUnfilled? amount value price market category
  else
    let bids ← math.valueFilled? amount value .bid position.openBids.toInt price market category
    let asks ← math.valueFilled? amount value .ask position.openAsks.toInt price market category
    if asks.freeCollateral < bids.freeCollateral then return asks else return bids

end MarketMath
end Unbounded
end SpotMargin
