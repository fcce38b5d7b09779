import SpotMargin.Proofs.Weight

/-!
# No step is left unchecked

Conversions and weight curves leave some of their steps unchecked, since these steps cannot leave
the range or divide by zero.  `MarketMath.checked` is the same arithmetic with each of these steps
checked as well, and `MarketMath.standard_eq_checked` says that it makes no difference for any
market, amount or price.
-/

namespace SpotMargin

open Fixed

/-- The power of ten of a balance, with every step checked. -/
def Market.checkedBalanceScale (market : Market) : Except Error Fixed :=
  if Precision.balanceDecimals < market.decimals then
    .error (.market market.numberLabel (.decimals market.decimals))
  else
    checkedPow10 (Precision.balanceDecimals - market.decimals)

/-- The tokens that a scaled balance stands for, with every step checked. -/
def Market.checkedTokenAmount (market : Market) (scaledBalance : Fixed) (type : BalanceType) :
    Except Error Fixed := do
  let scale ← market.checkedBalanceScale
  match type with
  | .deposit => mulDiv scaledBalance market.depositInterest scale
  | .borrow => checkedDivCeil (← checkedMul scaledBalance market.borrowInterest) scale

/-- The value of a signed amount of tokens, with every step checked. -/
def checkedTokenValue (amount : Fixed) (decimals : UInt32) (price : Fixed) : Except Error Fixed :=
  if amount = 0 then
    .ok 0
  else do
    mulDiv amount price (← checkedPow10 decimals)

/-- The conversions of interest-indexed balances, with every step checked. -/
def Conversion.checked : Conversion where
  tokenAmount scaledBalance market type := market.checkedTokenAmount scaledBalance type
  signedTokenAmount amount type := type.signedAmount amount
  tokenValue := checkedTokenValue
  strictTokenValue amount decimals price := checkedTokenValue amount decimals (price.adverse amount)

theorem Market.checkedBalanceScale_eq (market : Market) :
    market.checkedBalanceScale = market.balanceScale := by
  rw [checkedBalanceScale, checkedPow10_eq]
  rfl

theorem Market.checkedTokenAmount_eq (market : Market) (scaledBalance : Fixed)
    (type : BalanceType) :
    market.checkedTokenAmount scaledBalance type = market.tokenAmount scaledBalance type := by
  rw [checkedTokenAmount, checkedBalanceScale_eq]
  simp only [checkedDivCeil_eq]
  rfl

theorem checkedTokenValue_eq (amount : Fixed) (decimals : UInt32) (price : Fixed) :
    checkedTokenValue amount decimals price = tokenValue amount decimals price := by
  rw [checkedTokenValue, checkedPow10_eq]
  rfl

theorem Conversion.standard_eq_checked : Conversion.standard = Conversion.checked := by
  rw [Conversion.standard, Conversion.checked]
  simp only [Market.checkedTokenAmount_eq]
  congr
  · funext amount decimals price
    exact (checkedTokenValue_eq amount decimals price).symm
  · funext amount decimals price
    exact (checkedTokenValue_eq amount decimals (price.adverse amount)).symm

namespace Weight

/-- The size of an amount of tokens, with every step checked. -/
def checkedSize (amount : Fixed) (decimals : UInt32) : Except Error Fixed := do
  let unit ← checkedPow10 decimals
  if Precision.reserve < unit then
    checkedDiv amount (← checkedDiv unit Precision.reserve)
  else
    mulDiv amount Precision.reserve unit

/-- The term of the size in both curves, with every step checked. -/
def checkedSizeRoot (size : Fixed) : Except Error Fixed := do
  checkedIsqrt (← checkedAdd (← checkedMul size 10) 1)

/-- The asset weight after the discount for size, with every step checked. -/
def checkedDiscounted (size imfFactor weight : Fixed) : Except Error Fixed :=
  if imfFactor = 0 then
    .ok weight
  else do
    let growth ← checkedMul (← checkedSizeRoot size) imfFactor
    let denominator ← checkedAdd Precision.imf (← checkedDiv growth 100000)
    let numerator ← checkedAdd Precision.imf (← checkedDiv Precision.imf 10)
    let limit ← mulDiv numerator Precision.weight denominator
    return min weight limit

/-- The liability weight after the premium for size, with every step checked. -/
def checkedWithPremium (size imfFactor weight one : Fixed) : Except Error Fixed :=
  if imfFactor = 0 then
    .ok weight
  else do
    let share ← checkedDiv weight (max 1 (← checkedDiv Precision.imf imfFactor))
    let base ← checkedSub weight share
    let unit ← checkedDiv (← checkedMul 100000 Precision.imf) one
    let growth ← checkedMul (← checkedSizeRoot size) imfFactor
    let premium ← checkedAdd base (← checkedDiv growth unit)
    return max weight premium

theorem checkedSize_eq (amount : Fixed) (decimals : UInt32) :
    checkedSize amount decimals = size amount decimals := by
  have unit_step (unit : Fixed) :
      checkedDiv unit Precision.reserve = .ok (unit / Precision.reserve) :=
    checkedDiv_eq_ok_of_pos (by decide)
  rw [checkedSize, checkedPow10_eq]
  simp only [unit_step]
  rfl

theorem checkedSizeRoot_eq (size : Fixed) : checkedSizeRoot size = sizeRoot size := by
  rw [checkedSizeRoot, sizeRoot]
  simp only [checkedIsqrt_eq]

theorem checkedDiscounted_eq (size imfFactor weight : Fixed) :
    checkedDiscounted size imfFactor weight = discounted size imfFactor weight := by
  have share_step (growth : Fixed) : checkedDiv growth 100000 = .ok (growth / 100000) :=
    checkedDiv_eq_ok_of_pos (by decide)
  have tenth_step : checkedDiv Precision.imf 10 = .ok (Precision.imf / 10) :=
    checkedDiv_eq_ok_of_pos (by decide)
  have numerator_step : checkedAdd Precision.imf (Precision.imf / 10) =
      .ok (Precision.imf + Precision.imf / 10) :=
    checkedAdd_eq_ok_of_inRange (by decide)
  rw [checkedDiscounted, discounted]
  simp only [checkedSizeRoot_eq, share_step, tenth_step, numerator_step, ok_bind]

theorem checkedWithPremium_eq (size imfFactor weight one : Fixed) :
    checkedWithPremium size imfFactor weight one = withPremium size imfFactor weight one := by
  rw [checkedWithPremium, withPremium]
  split
  · rfl
  · rename_i not_zero
    have imfFactor_ne : imfFactor.toInt ≠ 0 := fun zero => not_zero (Fixed.ext zero)
    have quotient_step : checkedDiv Precision.imf imfFactor = .ok (Precision.imf / imfFactor) :=
      checkedDiv_eq_ok_of_ne imfFactor_ne (fun _ => by decide)
    have divisor_pos : 0 < (max 1 (Precision.imf / imfFactor)).toInt := by
      rw [toInt_premiumDivisor imfFactor_ne]
      omega
    have share_step := checkedDiv_eq_ok_of_pos (a := weight) divisor_pos
    have base_step : checkedSub weight (weight / max 1 (Precision.imf / imfFactor)) =
        .ok (weight - weight / max 1 (Precision.imf / imfFactor)) := by
      apply checkedSub_eq_ok_of_inRange
      rw [toInt_div_of_pos divisor_pos]
      exact inRange_sub_tdiv weight.inRange divisor_pos
    simp only [checkedSizeRoot_eq, quotient_step, share_step, base_step, ok_bind]

/-- The asset weight of an amount, with every step checked. -/
def checkedAsset (amount price : Fixed) (market : Market) (category : MarginCategory) :
    Except Error Fixed := do
  let size ← checkedSize (← checkedAbs amount) market.decimals
  checkedDiscounted size market.imfFactor (← base .checked price market category)

/-- The liability weight of a debt, with every step checked. -/
def checkedLiability (amount : Fixed) (market : Market) (category : MarginCategory) :
    Except Error Fixed := do
  let size ← checkedSize amount market.decimals
  checkedWithPremium size market.imfFactor (market.liabilityWeight category) Precision.weight

theorem checkedAsset_eq (amount price : Fixed) (market : Market) (category : MarginCategory) :
    checkedAsset amount price market category = asset .standard amount price market category := by
  rw [asset_eq, checkedAsset, Conversion.standard_eq_checked]
  simp only [checkedSize_eq, checkedDiscounted_eq]

theorem checkedLiability_eq (amount : Fixed) (market : Market) (category : MarginCategory) :
    checkedLiability amount market category = liability amount market category := by
  rw [liability_eq, checkedLiability]
  simp only [checkedSize_eq, checkedWithPremium_eq]

end Weight

/-- Conversions and weight curves with every step checked. -/
def MarketMath.checked : MarketMath where
  toConversion := .checked
  assetWeight := Weight.checkedAsset
  liabilityWeight := Weight.checkedLiability

theorem MarketMath.standard_eq_checked : MarketMath.standard = MarketMath.checked := by
  rw [MarketMath.standard, MarketMath.ofConversion, MarketMath.checked]
  congr
  · exact Conversion.standard_eq_checked
  · funext amount price market category
    exact (Weight.checkedAsset_eq amount price market category).symm
  · funext amount market category
    exact (Weight.checkedLiability_eq amount market category).symm

end SpotMargin
