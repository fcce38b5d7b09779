import SpotMargin.Conversion
import SpotMargin.Fixed.Sqrt

/-!
# Weight curves

A weight is the fraction of a value that counts as collateral, or the multiple of a debt that has
to be covered.  Weights come from the market, and two curves move them with the size of the
position: large holdings get a lower asset weight, and large debts a higher liability weight.  The
initial asset weight is derated besides when all deposits together are worth more than the market's
scale start.
-/

namespace SpotMargin

namespace Weight

/-- The size of an amount of tokens as the curves look at it, in billionths of a token. -/
def size (amount : Fixed) (decimals : UInt32) : Except Error Fixed := do
  let unit ← Fixed.pow10 decimals
  if Precision.reserve < unit then
    Fixed.checkedDiv amount (unit / Precision.reserve)
  else
    Fixed.mulDiv amount Precision.reserve unit

/-- The term of the size in both curves, the square root of ten times the size plus one. -/
def sizeRoot (size : Fixed) : Except Error Fixed := do
  Fixed.isqrt (← Fixed.checkedAdd (← Fixed.checkedMul size 10) 1)

/-- The asset weight after the discount for size; never above `weight`. -/
def discounted (size imfFactor weight : Fixed) : Except Error Fixed :=
  if imfFactor = 0 then
    .ok weight
  else do
    let growth ← Fixed.checkedMul (← sizeRoot size) imfFactor
    let denominator ← Fixed.checkedAdd Precision.imf (growth / 100000)
    let limit ← Fixed.mulDiv (Precision.imf + Precision.imf / 10) Precision.weight denominator
    return min weight limit

/-- The liability weight after the premium for size, where `one` is the unit of the weight; never
below `weight`. -/
def withPremium (size imfFactor weight one : Fixed) : Except Error Fixed :=
  if imfFactor = 0 then
    .ok weight
  else do
    let base := weight - weight / max 1 (Precision.imf / imfFactor)
    let unit ← Fixed.checkedDiv (← Fixed.checkedMul 100000 Precision.imf) one
    let growth ← Fixed.checkedMul (← sizeRoot size) imfFactor
    let premium ← Fixed.checkedAdd base (← Fixed.checkedDiv growth unit)
    return max weight premium

/-- The initial asset weight of the market, derated in proportion once the value of all deposits
reaches the scale start. -/
def scaledInitial (conversion : Conversion) (market : Market) (price : Fixed) :
    Except Error Fixed :=
  if market.scaleStart = 0 then
    .ok market.initialAssetWeight
  else do
    let deposits ← conversion.tokenAmount market.depositBalance market .deposit
    let value ← conversion.tokenValue deposits market.decimals price
    if value < market.scaleStart then
      return market.initialAssetWeight
    else
      Fixed.mulDiv market.initialAssetWeight market.scaleStart value

/-- The asset weight of an amount of either sign, where all deposits are valued through
`conversion`. -/
def asset (conversion : Conversion) (amount price : Fixed) (market : Market)
    (category : MarginCategory) : Except Error Fixed := do
  let size ← size (← Fixed.checkedAbs amount) market.decimals
  match category with
  | .initial =>
      discounted size market.imfFactor (← scaledInitial conversion market price)
  | .maintenance =>
      discounted size market.imfFactor market.maintenanceAssetWeight

/-- The liability weight of a debt of the given amount. -/
def liability (amount : Fixed) (market : Market) (category : MarginCategory) :
    Except Error Fixed := do
  let size ← size amount market.decimals
  match category with
  | .initial =>
      withPremium size market.imfFactor market.initialLiabilityWeight Precision.weight
  | .maintenance =>
      withPremium size market.imfFactor market.maintenanceLiabilityWeight Precision.weight

end Weight

/-- All that a valuation asks of a market: conversions, the weight of an amount that counts as
collateral at the current price, and the weight of one that counts as debt. -/
structure MarketMath extends Conversion where
  assetWeight : Fixed → Fixed → Market → MarginCategory → Except Error Fixed
  liabilityWeight : Fixed → Market → MarginCategory → Except Error Fixed

namespace MarketMath

def ofConversion (conversion : Conversion) : MarketMath where
  toConversion := conversion
  assetWeight := Weight.asset conversion
  liabilityWeight := Weight.liability

/-- The weight curves over the conversions of interest-indexed balances. -/
def standard : MarketMath :=
  ofConversion .standard

end MarketMath
end SpotMargin
