import SpotMargin.Proofs.Checked
import SpotMargin.Proofs.Unbounded.Arithmetic

/-!
# Conversions and weight curves never wrap

Whenever a conversion or a weight returns, its result is the evaluation over unbounded integers, in
any market and for any arguments.  `MarketMath.Follows` is this relation for all that a valuation
asks of a market: the standard conversions and curves follow their own formulas, and any others
follow their own results.
-/

namespace SpotMargin

open Fixed Unbounded

/-- Each conversion that returns gives the value of the evaluation. -/
structure Conversion.Follows (conversion : Conversion) (evaluation : Unbounded.Conversion) :
    Prop where
  tokenAmount (balance : Fixed) (market : Market) (type : BalanceType) :
    Fixed.Computes (conversion.tokenAmount balance market type)
      (evaluation.tokenAmount balance.toInt market type)
  signedTokenAmount (amount : Fixed) (type : BalanceType) :
    Fixed.Computes (conversion.signedTokenAmount amount type)
      (evaluation.signedTokenAmount amount.toInt type)
  tokenValue (amount : Fixed) (decimals : UInt32) (price : Fixed) :
    Fixed.Computes (conversion.tokenValue amount decimals price)
      (evaluation.tokenValue amount.toInt decimals price.toInt)
  strictTokenValue (amount : Fixed) (decimals : UInt32) (price : StrictPrice) :
    Fixed.Computes (conversion.strictTokenValue amount decimals price)
      (evaluation.strictTokenValue amount.toInt decimals price)

/-- Each conversion and each weight that returns gives the value of the evaluation. -/
structure MarketMath.Follows (math : MarketMath) (evaluation : Unbounded.MarketMath) : Prop
    extends math.toConversion.Follows evaluation.toConversion where
  assetWeight (amount price : Fixed) (market : Market) (category : MarginCategory) :
    Fixed.Computes (math.assetWeight amount price market category)
      (evaluation.assetWeight amount.toInt price.toInt market category)
  liabilityWeight (amount : Fixed) (market : Market) (category : MarginCategory) :
    Fixed.Computes (math.liabilityWeight amount market category)
      (evaluation.liabilityWeight amount.toInt market category)

theorem Market.computes_balanceScale (market : Market) :
    Fixed.Computes market.balanceScale (some (10 ^ (19 - market.decimals.toNat))) := by
  rw [balanceScale]
  split
  · exact .error _
  · rename_i few
    have places := UInt32.toNat_sub_of_le _ _ (UInt32.not_lt.mp few)
    rw [Precision.toNat_balanceDecimals] at places
    rw [← places]
    exact computes_pow10 _

theorem Market.computes_tokenAmount (market : Market) (balance : Fixed) (type : BalanceType) :
    Fixed.Computes (market.tokenAmount balance type)
      (tokenAmount? balance.toInt market type) := by
  refine market.computes_balanceScale.step ?_
  intro scale scale_eq
  cases type with
  | deposit =>
      rw [tokenAmount?, ← scale_eq]
      exact computes_mulDiv balance market.depositInterest scale
  | borrow =>
      refine (computes_checkedMul balance market.borrowInterest).step ?_
      intro grown grown_eq
      rw [tokenAmount?, ← scale_eq, ← grown_eq]
      exact computes_divCeil grown scale

theorem BalanceType.computes_signedAmount (type : BalanceType) (amount : Fixed) :
    Fixed.Computes (type.signedAmount amount)
      (some (Unbounded.signedAmount amount.toInt type)) := by
  cases type with
  | deposit => exact .ok amount
  | borrow =>
      refine (computes_checkedAbs amount).step ?_
      intro magnitude magnitude_eq
      rw [Unbounded.signedAmount, ← magnitude_eq]
      exact computes_checkedNeg magnitude

theorem computes_tokenValue (amount : Fixed) (decimals : UInt32) (price : Fixed) :
    Fixed.Computes (tokenValue amount decimals price)
      (tokenValue? amount.toInt decimals price.toInt) := by
  refine .ite Fixed.ext_iff (fun _ => .ok 0) ?_
  intro _
  refine (computes_pow10 decimals).step ?_
  intro unit unit_eq
  rw [← unit_eq]
  exact computes_mulDiv amount price unit

theorem StrictPrice.toInt_adverse (price : StrictPrice) (amount : Fixed) :
    (price.adverse amount).toInt =
      if 0 < amount.toInt then price.lower.toInt else price.upper.toInt :=
  apply_ite toInt (0 < amount) price.lower price.upper

theorem Conversion.standard_follows : Conversion.standard.Follows .standard where
  tokenAmount balance market type := market.computes_tokenAmount balance type
  signedTokenAmount amount type := type.computes_signedAmount amount
  tokenValue := computes_tokenValue
  strictTokenValue amount decimals price := by
    have computed := computes_tokenValue amount decimals (price.adverse amount)
    rwa [price.toInt_adverse] at computed

namespace Weight

theorem computes_size (amount : Fixed) (decimals : UInt32) :
    Fixed.Computes (size amount decimals) (size? amount.toInt decimals) := by
  rw [← checkedSize_eq, checkedSize, checkedPow10_eq]
  refine (computes_pow10 decimals).step ?_
  intro unit unit_eq
  rw [size?, ← unit_eq]
  refine .ite Iff.rfl ?_ ?_
  · intro _
    refine (computes_checkedDiv unit Precision.reserve).bind ?_
    intro divisor
    exact computes_checkedDiv amount divisor
  · intro _
    exact computes_mulDiv amount Precision.reserve unit

theorem computes_sizeRoot (size : Fixed) :
    Fixed.Computes (sizeRoot size) (sizeRoot? size.toInt) := by
  refine (computes_checkedMul size 10).step ?_
  intro tenfold tenfold_eq
  refine (computes_checkedAdd tenfold 1).step ?_
  intro radicand radicand_eq
  have exact : radicand.toInt = size.toInt * 10 + 1 := by
    rw [radicand_eq, tenfold_eq]
    rfl
  rw [sizeRoot?, ← exact]
  exact computes_isqrt radicand

theorem computes_discounted (size imfFactor weight : Fixed) :
    Fixed.Computes (discounted size imfFactor weight)
      (discounted? size.toInt imfFactor.toInt weight.toInt) := by
  rw [← checkedDiscounted_eq, checkedDiscounted, checkedSizeRoot_eq]
  refine .ite Fixed.ext_iff (fun _ => .ok weight) ?_
  intro _
  refine (computes_sizeRoot size).bind ?_
  intro root
  refine (computes_checkedMul root imfFactor).step ?_
  intro growth growth_eq
  rw [← growth_eq]
  refine (computes_checkedDiv growth 100000).bind ?_
  intro share
  refine (computes_checkedAdd Precision.imf share).step ?_
  intro denominator (denominator_eq : denominator.toInt = 10 ^ 6 + share.toInt)
  refine (computes_checkedDiv Precision.imf 10).bind ?_
  intro tenth
  refine (computes_checkedAdd Precision.imf tenth).step ?_
  intro numerator (numerator_eq : numerator.toInt = 10 ^ 6 + tenth.toInt)
  rw [← denominator_eq, ← numerator_eq]
  refine (computes_mulDiv numerator Precision.weight denominator).bind ?_
  intro limit
  rw [← toInt_min]
  exact .ok (min weight limit)

theorem computes_withPremium (size imfFactor weight one : Fixed) :
    Fixed.Computes (withPremium size imfFactor weight one)
      (withPremium? size.toInt imfFactor.toInt weight.toInt one.toInt) := by
  rw [← checkedWithPremium_eq, checkedWithPremium, checkedSizeRoot_eq]
  refine .ite Fixed.ext_iff (fun _ => .ok weight) ?_
  intro _
  refine (computes_checkedDiv Precision.imf imfFactor).bind ?_
  intro quotient
  rw [← toInt_one, ← toInt_max]
  refine (computes_checkedDiv weight (max 1 quotient)).bind ?_
  intro share
  refine (computes_checkedSub weight share).step ?_
  intro base base_eq
  refine (computes_checkedMul 100000 Precision.imf).step ?_
  intro product (product_eq : product.toInt = 100000 * 10 ^ 6)
  rw [← product_eq]
  refine (computes_checkedDiv product one).bind ?_
  intro unit
  refine (computes_sizeRoot size).bind ?_
  intro root
  refine (computes_checkedMul root imfFactor).step ?_
  intro growth growth_eq
  rw [← growth_eq]
  refine (computes_checkedDiv growth unit).bind ?_
  intro growthShare
  refine (computes_checkedAdd base growthShare).step ?_
  intro premium premium_eq
  rw [← base_eq, ← premium_eq, ← toInt_max]
  exact .ok (max weight premium)

theorem computes_scaledInitial {conversion : Conversion} {evaluation : Unbounded.Conversion}
    (follows : conversion.Follows evaluation) (market : Market) (price : Fixed) :
    Fixed.Computes (scaledInitial conversion market price)
      (scaledInitial? evaluation market price.toInt) := by
  refine .ite Fixed.ext_iff (fun _ => .ok market.initialAssetWeight) ?_
  intro _
  refine (follows.tokenAmount market.depositBalance market .deposit).bind ?_
  intro deposits
  refine (follows.tokenValue deposits market.decimals price).bind ?_
  intro value
  refine .ite Iff.rfl (fun _ => .ok market.initialAssetWeight) ?_
  intro _
  exact computes_mulDiv market.initialAssetWeight market.scaleStart value

theorem computes_asset {conversion : Conversion} {evaluation : Unbounded.Conversion}
    (follows : conversion.Follows evaluation) (amount price : Fixed) (market : Market)
    (category : MarginCategory) :
    Fixed.Computes (asset conversion amount price market category)
      (asset? evaluation amount.toInt price.toInt market category) := by
  refine (computes_checkedAbs amount).step ?_
  intro magnitude magnitude_eq
  rw [asset?, ← magnitude_eq]
  refine (computes_size magnitude market.decimals).bind ?_
  intro size
  cases category with
  | initial =>
      refine (computes_scaledInitial follows market price).bind ?_
      intro weight
      exact computes_discounted size market.imfFactor weight
  | maintenance => exact computes_discounted size market.imfFactor market.maintenanceAssetWeight

theorem computes_liability (amount : Fixed) (market : Market) (category : MarginCategory) :
    Fixed.Computes (liability amount market category)
      (liability? amount.toInt market category) := by
  refine (computes_size amount market.decimals).bind ?_
  intro size
  cases category with
  | initial =>
      exact computes_withPremium size market.imfFactor market.initialLiabilityWeight
        Precision.weight
  | maintenance =>
      exact computes_withPremium size market.imfFactor market.maintenanceLiabilityWeight
        Precision.weight

/-- Whenever a weight function returns, its result is the evaluation over unbounded integers.  The
steps that the size and the curves leave unchecked would all pass a check. -/
structure NeverWraps : Prop where
  size (amount : Fixed) (decimals : UInt32) :
    Fixed.Computes (size amount decimals) (size? amount.toInt decimals)
  discounted (size imfFactor weight : Fixed) :
    Fixed.Computes (discounted size imfFactor weight)
      (discounted? size.toInt imfFactor.toInt weight.toInt)
  withPremium (size imfFactor weight one : Fixed) :
    Fixed.Computes (withPremium size imfFactor weight one)
      (withPremium? size.toInt imfFactor.toInt weight.toInt one.toInt)
  scaledInitial {conversion : Conversion} {evaluation : Unbounded.Conversion}
    (follows : conversion.Follows evaluation) (market : Market) (price : Fixed) :
    Fixed.Computes (scaledInitial conversion market price)
      (scaledInitial? evaluation market price.toInt)
  size_steps (amount : Fixed) (decimals : UInt32) :
    Weight.size amount decimals = checkedSize amount decimals
  discounted_steps (size imfFactor weight : Fixed) :
    Weight.discounted size imfFactor weight = checkedDiscounted size imfFactor weight
  withPremium_steps (size imfFactor weight one : Fixed) :
    Weight.withPremium size imfFactor weight one = checkedWithPremium size imfFactor weight one

theorem neverWraps : NeverWraps where
  size := computes_size
  discounted := computes_discounted
  withPremium := computes_withPremium
  scaledInitial follows := computes_scaledInitial follows
  size_steps amount decimals := (checkedSize_eq amount decimals).symm
  discounted_steps size imfFactor weight := (checkedDiscounted_eq size imfFactor weight).symm
  withPremium_steps size imfFactor weight one :=
    (checkedWithPremium_eq size imfFactor weight one).symm

end Weight

namespace MarketMath

theorem ofConversion_follows {conversion : Conversion} {evaluation : Unbounded.Conversion}
    (follows : conversion.Follows evaluation) :
    (ofConversion conversion).Follows (.ofConversion evaluation) where
  toFollows := follows
  assetWeight := Weight.computes_asset follows
  liabilityWeight := Weight.computes_liability

theorem standard_follows : standard.Follows .standard :=
  ofConversion_follows Conversion.standard_follows

end MarketMath

/-- The integer that the computation returns. -/
def Fixed.returned? (x : Except Error Fixed) : Option Int :=
  x.toOption.map toInt

/-- The conversion of the fixed-point integer, when the integer is one. -/
def Fixed.convert? (n : Int) (conversion : Fixed → Except Error Fixed) : Option Int := do
  returned? (conversion (← ofInt? n))

theorem Fixed.computes_convert? (conversion : Fixed → Except Error Fixed) (x : Fixed) :
    Fixed.Computes (conversion x) (convert? x.toInt conversion) := by
  intro result returned
  rw [convert?, ofInt?_toInt]
  change returned? (conversion x) = _
  rw [returned]
  rfl

/-- The conversions and weights of any market, as they are on fixed-point integers. -/
def MarketMath.onIntegers (math : MarketMath) : Unbounded.MarketMath where
  tokenAmount balance market type :=
    convert? balance fun balance => math.tokenAmount balance market type
  signedTokenAmount amount type := convert? amount fun amount => math.signedTokenAmount amount type
  tokenValue amount decimals price := do
    let price ← ofInt? price
    convert? amount fun amount => math.tokenValue amount decimals price
  strictTokenValue amount decimals price :=
    convert? amount fun amount => math.strictTokenValue amount decimals price
  assetWeight amount price market category := do
    let price ← ofInt? price
    convert? amount fun amount => math.assetWeight amount price market category
  liabilityWeight amount market category :=
    convert? amount fun amount => math.liabilityWeight amount market category

theorem MarketMath.follows_onIntegers (math : MarketMath) : math.Follows math.onIntegers where
  tokenAmount balance market type := computes_convert? (math.tokenAmount · market type) balance
  signedTokenAmount amount type := computes_convert? (math.signedTokenAmount · type) amount
  tokenValue amount decimals price := by
    have computed := computes_convert? (math.tokenValue · decimals price) amount
    simp only [onIntegers, ofInt?_toInt]
    exact computed
  strictTokenValue amount decimals price :=
    computes_convert? (math.strictTokenValue · decimals price) amount
  assetWeight amount price market category := by
    have computed := computes_convert? (math.assetWeight · price market category) amount
    simp only [onIntegers, ofInt?_toInt]
    exact computed
  liabilityWeight amount market category :=
    computes_convert? (math.liabilityWeight · market category) amount

end SpotMargin
