import SpotMargin.Proofs.Conversion
import SpotMargin.Weight

/-!
# Outcomes of weight curves

In a valid market the curves stay within the bounds of weights: an asset weight is a fraction of
one, and a liability weight is at least one.  A debt never lowers its liability weight by growing.
-/

namespace SpotMargin

open Fixed

/-- The liability weight before the premium for size. -/
def Market.liabilityWeight (market : Market) : MarginCategory → Fixed
  | .initial => market.initialLiabilityWeight
  | .maintenance => market.maintenanceLiabilityWeight

/-- The asset weight before the discount for size. -/
def Weight.base (conversion : Conversion) (price : Fixed) (market : Market) :
    MarginCategory → Except Error Fixed
  | .initial => scaledInitial conversion market price
  | .maintenance => .ok market.maintenanceAssetWeight

namespace Market

variable {market : Market}

theorem Valid.one_le_liabilityWeight (valid : market.Valid) (category : MarginCategory) :
    10000 ≤ (market.liabilityWeight category).toInt := by
  cases category with
  | initial => exact valid.fieldValid .initialLiabilityWeight
  | maintenance => exact valid.fieldValid .maintenanceLiabilityWeight

theorem Valid.initialAssetWeight_bounds (valid : market.Valid) :
    0 ≤ market.initialAssetWeight.toInt ∧ market.initialAssetWeight.toInt ≤ 10000 :=
  valid.fieldValid .initialAssetWeight

theorem Valid.maintenanceAssetWeight_bounds (valid : market.Valid) :
    0 ≤ market.maintenanceAssetWeight.toInt ∧ market.maintenanceAssetWeight.toInt ≤ 10000 :=
  valid.fieldValid .maintenanceAssetWeight

theorem Valid.imfFactor_nonneg (valid : market.Valid) : 0 ≤ market.imfFactor.toInt :=
  valid.fieldValid .imfFactor

theorem Valid.scaleStart_nonneg (valid : market.Valid) : 0 ≤ market.scaleStart.toInt :=
  valid.fieldValid .scaleStart

end Market

namespace Weight

theorem asset_eq (conversion : Conversion) (amount price : Fixed) (market : Market)
    (category : MarginCategory) :
    asset conversion amount price market category = (do
      let size ← size (← checkedAbs amount) market.decimals
      discounted size market.imfFactor (← base conversion price market category)) := by
  cases category <;> rfl

theorem liability_eq (amount : Fixed) (market : Market) (category : MarginCategory) :
    liability amount market category = (do
      let size ← size amount market.decimals
      withPremium size market.imfFactor (market.liabilityWeight category) Precision.weight) := by
  cases category <;> rfl

private theorem toInt_reserveUnit {unit : Fixed} :
    (unit / Precision.reserve).toInt = unit.toInt.tdiv (10 ^ 9) :=
  toInt_div_of_pos (by decide)

theorem ensures_size (amount : Fixed) {decimals : UInt32} (small : decimals ≤ 38) :
    Ensures Error.LeavesRange (·.toInt = Exact.size amount.toInt decimals.toNat)
      (size amount decimals) := by
  refine (ensures_pow10 small).bind ?_
  intro unit unit_eq
  have unit_pos : 0 < unit.toInt := by
    rw [unit_eq]
    exact Int.pow_pos (by decide)
  have large_iff : Precision.reserve < unit ↔ (10 : Int) ^ 9 < 10 ^ decimals.toNat := by
    rw [lt_iff, unit_eq]
    rfl
  by_cases large : (10 : Int) ^ 9 < 10 ^ decimals.toNat
  · rw [if_pos (large_iff.mpr large), Exact.size, if_pos large, ← unit_eq, ← toInt_reserveUnit]
    apply ensures_checkedDiv
    rw [toInt_reserveUnit, unit_eq]
    exact Exact.reserve_unit_pos large
  · rw [if_neg (large_iff.not.mpr large), Exact.size, if_neg large, ← unit_eq]
    exact ensures_mulDiv amount Precision.reserve unit_pos

/-- The radicand is one more than a multiple of ten, so it is never two. -/
theorem ensures_sizeRoot {size : Fixed} (size_nonneg : 0 ≤ size.toInt) :
    Ensures Error.LeavesRange (·.toInt = Exact.sizeRoot size.toInt) (sizeRoot size) := by
  refine (ensures_checkedMul size 10).bind ?_
  intro tenfold tenfold_eq
  refine (ensures_checkedAdd tenfold 1).bind ?_
  intro radicand radicand_eq
  have exact : radicand.toInt = size.toInt * 10 + 1 := by
    rw [radicand_eq, tenfold_eq]
    rfl
  obtain ⟨root, returned, root_eq⟩ := isqrt_eq_ok (x := radicand) (by omega) (by omega)
  rw [returned, Exact.sizeRoot, ← exact]
  exact root_eq

theorem ensures_discounted {size imfFactor : Fixed} (weight : Fixed)
    (size_nonneg : 0 ≤ size.toInt) (imfFactor_nonneg : 0 ≤ imfFactor.toInt) :
    Ensures Error.LeavesRange
      (·.toInt = Exact.discounted size.toInt imfFactor.toInt weight.toInt)
      (discounted size imfFactor weight) := by
  by_cases flat : imfFactor.toInt = 0
  · have zero : imfFactor = 0 := Fixed.ext flat
    rw [discounted, if_pos zero, Exact.discounted, if_pos flat]
    rfl
  · have not_zero : imfFactor ≠ 0 := fun zero => flat (congrArg toInt zero)
    rw [discounted, if_neg not_zero, Exact.discounted, if_neg flat]
    refine (ensures_sizeRoot size_nonneg).bind ?_
    intro root root_eq
    refine (ensures_checkedMul root imfFactor).bind ?_
    intro growth growth_eq
    have share_eq : (growth / 100000).toInt = growth.toInt.tdiv (10 ^ 5) :=
      toInt_div_of_pos (by decide)
    refine (ensures_checkedAdd Precision.imf (growth / 100000)).bind ?_
    intro denominator denominator_eq
    have exact : denominator.toInt =
        10 ^ 6 + (Exact.sizeRoot size.toInt * imfFactor.toInt).tdiv (10 ^ 5) := by
      rw [denominator_eq, share_eq, growth_eq, root_eq]
      rfl
    have share_nonneg := Int.tdiv_nonneg (Exact.growth_nonneg size.toInt imfFactor_nonneg)
      (by decide : (0 : Int) ≤ 10 ^ 5)
    have denominator_pos : 0 < denominator.toInt := by omega
    refine (ensures_mulDiv _ _ denominator_pos).bind ?_
    intro limit limit_eq
    rw [Ensures.pure_iff, toInt_min, limit_eq, exact]
    rfl

/-- The weight less its share is between zero and the weight. -/
theorem inRange_sub_tdiv {n d : Int} (range : InRange n) (d_pos : 0 < d) :
    InRange (n - n.tdiv d) := by
  have size := Int.natAbs_tdiv_le_natAbs n d
  rw [InRange] at range ⊢
  rcases Int.le_total 0 n with n_nonneg | n_nonpos
  · have share_nonneg := Int.tdiv_nonneg n_nonneg d_pos.le
    omega
  · have share_nonneg := Int.tdiv_nonneg (Int.neg_nonneg_of_nonpos n_nonpos) d_pos.le
    rw [Int.neg_tdiv] at share_nonneg
    omega

/-- The divisor of the share of the liability weight that the premium replaces. -/
theorem toInt_premiumDivisor {imfFactor : Fixed} (not_zero : imfFactor.toInt ≠ 0) :
    (max 1 (Precision.imf / imfFactor)).toInt = max 1 ((10 ^ 6 : Int).tdiv imfFactor.toInt) := by
  have quotient : (Precision.imf / imfFactor).toInt = (10 ^ 6 : Int).tdiv imfFactor.toInt :=
    toInt_div_of_inRange (inRange_tdiv Precision.imf.inRange not_zero (fun _ => by decide))
  rw [toInt_max, quotient]
  rfl

private theorem toInt_premiumBase {imfFactor : Fixed} (weight : Fixed)
    (not_zero : imfFactor.toInt ≠ 0) :
    (weight - weight / max 1 (Precision.imf / imfFactor)).toInt =
      weight.toInt - weight.toInt.tdiv (max 1 ((10 ^ 6 : Int).tdiv imfFactor.toInt)) := by
  have divisor := toInt_premiumDivisor not_zero
  have divisor_pos : 0 < (max 1 (Precision.imf / imfFactor)).toInt := by
    rw [divisor]
    omega
  have share := toInt_div_of_pos (a := weight) divisor_pos
  rw [divisor] at share divisor_pos
  rw [toInt_sub_of_inRange] <;> rw [share]
  exact inRange_sub_tdiv weight.inRange divisor_pos

theorem ensures_withPremium {size imfFactor : Fixed} (weight : Fixed)
    (size_nonneg : 0 ≤ size.toInt) :
    Ensures Error.LeavesRange
      (·.toInt = Exact.withPremium size.toInt imfFactor.toInt weight.toInt)
      (withPremium size imfFactor weight Precision.weight) := by
  by_cases flat : imfFactor.toInt = 0
  · have zero : imfFactor = 0 := Fixed.ext flat
    rw [withPremium, if_pos zero, Exact.withPremium, if_pos flat]
    rfl
  · have not_zero : imfFactor ≠ 0 := fun zero => flat (congrArg toInt zero)
    rw [withPremium, if_neg not_zero, Exact.withPremium, if_neg flat]
    have base := toInt_premiumBase weight flat
    refine (ensures_checkedMul 100000 Precision.imf).bind ?_
    intro product product_eq
    refine (ensures_checkedDiv product (by decide : 0 < Precision.weight.toInt)).bind ?_
    intro unit unit_eq
    have unit_value : unit.toInt = 10 ^ 7 := by
      rw [unit_eq, product_eq]
      rfl
    refine (ensures_sizeRoot size_nonneg).bind ?_
    intro root root_eq
    refine (ensures_checkedMul root imfFactor).bind ?_
    intro growth growth_eq
    refine (ensures_checkedDiv growth (by omega : 0 < unit.toInt)).bind ?_
    intro share share_eq
    refine (ensures_checkedAdd _ share).bind ?_
    intro premium premium_eq
    rw [Ensures.pure_iff, toInt_max, premium_eq, base, share_eq, growth_eq, root_eq, unit_value]

theorem ensures_scaledInitial {market : Market} (valid : market.Valid) (price : Fixed) :
    Ensures Error.LeavesRange
      (fun weight => 0 ≤ weight.toInt ∧ weight.toInt ≤ market.initialAssetWeight.toInt)
      (scaledInitial .standard market price) := by
  have start_nonneg := valid.scaleStart_nonneg
  obtain ⟨weight_nonneg, -⟩ := valid.initialAssetWeight_bounds
  rw [scaledInitial]
  split
  · exact ⟨weight_nonneg, le_refl _⟩
  · rename_i start_ne
    have start_ne_zero : market.scaleStart.toInt ≠ 0 := fun zero => start_ne (Fixed.ext zero)
    refine (Market.ensures_tokenAmount valid market.depositBalance .deposit).bind_any ?_
    intro deposits
    refine (ensures_tokenValue deposits price valid.decimals_le_max).bind ?_
    intro value _
    split <;> rename_i below <;> rw [lt_iff] at below
    · exact ⟨weight_nonneg, le_refl _⟩
    · -- The deposits are worth at least the start, so they are worth something.
      have value_pos : 0 < value.toInt := by omega
      refine (ensures_mulDiv market.initialAssetWeight market.scaleStart value_pos).mono ?_
      intro scaled scaled_eq
      rw [scaled_eq, ← Exact.derated_of_reached start_ne_zero (not_lt.mp below)]
      exact ⟨Exact.derated_nonneg weight_nonneg start_nonneg,
        Exact.derated_le weight_nonneg start_nonneg⟩

theorem ensures_base {market : Market} (valid : market.Valid) (price : Fixed)
    (category : MarginCategory) :
    Ensures Error.LeavesRange (fun weight => 0 ≤ weight.toInt ∧ weight.toInt ≤ 10000)
      (base .standard price market category) := by
  cases category with
  | initial =>
      refine (ensures_scaledInitial valid price).mono ?_
      intro weight bounds
      exact ⟨bounds.1, bounds.2.trans valid.initialAssetWeight_bounds.2⟩
  | maintenance => exact valid.maintenanceAssetWeight_bounds

/-- The asset weight is the exact discount of the base weight, on the size of either sign. -/
theorem ensures_asset_exact {market : Market} (valid : market.Valid) (amount price : Fixed)
    (category : MarginCategory) :
    Ensures Error.LeavesRange
      (fun result => ∃ weight, base .standard price market category = .ok weight ∧
        result.toInt = Exact.discounted
          (Exact.size amount.toInt.natAbs market.decimals.toNat) market.imfFactor.toInt
          weight.toInt)
      (asset .standard amount price market category) := by
  rw [asset_eq]
  refine (ensures_checkedAbs amount).bind ?_
  intro magnitude magnitude_eq
  refine (ensures_size magnitude valid.decimals_le_max).bind ?_
  intro size size_eq
  rw [magnitude_eq] at size_eq
  have size_nonneg : 0 ≤ size.toInt := by
    rw [size_eq]
    exact Exact.size_nonneg (by omega)
  refine (ensures_base valid price category).and_returned.bind ?_
  intro weight base_eq
  rw [← size_eq]
  refine (ensures_discounted weight size_nonneg valid.imfFactor_nonneg).mono ?_
  intro discounted discounted_eq
  exact ⟨weight, base_eq.1, discounted_eq⟩

theorem ensures_asset {market : Market} (valid : market.Valid) (amount price : Fixed)
    (category : MarginCategory) :
    Ensures Error.LeavesRange (fun weight => 0 ≤ weight.toInt ∧ weight.toInt ≤ 10000)
      (asset .standard amount price market category) := by
  refine (ensures_asset_exact valid amount price category).mono ?_
  rintro discounted ⟨weight, base_eq, discounted_eq⟩
  have bounds := (ensures_base valid price category).result_of_eq_ok base_eq
  rw [discounted_eq]
  exact ⟨Exact.discounted_nonneg valid.imfFactor_nonneg bounds.1,
    Exact.discounted_le.trans bounds.2⟩

/-- The liability weight of a debt is exact. -/
theorem ensures_liability {market : Market} (valid : market.Valid) {amount : Fixed}
    (amount_nonneg : 0 ≤ amount.toInt) (category : MarginCategory) :
    Ensures Error.LeavesRange
      (·.toInt = Exact.withPremium (Exact.size amount.toInt market.decimals.toNat)
        market.imfFactor.toInt (market.liabilityWeight category).toInt)
      (liability amount market category) := by
  rw [liability_eq]
  refine (ensures_size amount valid.decimals_le_max).bind ?_
  intro size size_eq
  have size_nonneg : 0 ≤ size.toInt := by
    rw [size_eq]
    exact Exact.size_nonneg amount_nonneg
  rw [← size_eq]
  exact ensures_withPremium _ size_nonneg

/-- A larger holding has no higher asset weight. -/
theorem asset_antitone {market : Market} (valid : market.Valid) {category : MarginCategory}
    {amount larger price weight lighter : Fixed}
    (amount_le : amount.toInt.natAbs ≤ larger.toInt.natAbs)
    (returned : asset .standard amount price market category = .ok weight)
    (larger_returned : asset .standard larger price market category = .ok lighter) :
    lighter ≤ weight := by
  obtain ⟨given, base_eq, weight_eq⟩ :=
    (ensures_asset_exact valid amount price category).result_of_eq_ok returned
  obtain ⟨same, same_base_eq, lighter_eq⟩ :=
    (ensures_asset_exact valid larger price category).result_of_eq_ok larger_returned
  rw [base_eq] at same_base_eq
  cases same_base_eq
  rw [le_iff, weight_eq, lighter_eq]
  exact Exact.discounted_antitone (Exact.size_mono (by exact_mod_cast amount_le))
    valid.imfFactor_nonneg

/-- A greater debt has no lower liability weight. -/
theorem liability_mono {market : Market} (valid : market.Valid) {category : MarginCategory}
    {amount greater weight heavier : Fixed} (amount_nonneg : 0 ≤ amount.toInt)
    (amount_le : amount ≤ greater) (returned : liability amount market category = .ok weight)
    (greater_returned : liability greater market category = .ok heavier) : weight ≤ heavier := by
  rw [le_iff] at amount_le ⊢
  rw [(ensures_liability valid amount_nonneg category).result_of_eq_ok returned,
    (ensures_liability valid (by omega) category).result_of_eq_ok greater_returned]
  exact Exact.withPremium_mono (Exact.size_mono amount_le) valid.imfFactor_nonneg

theorem base_eq_ok_of_flat {conversion : Conversion} {market : Market} {amount price weight : Fixed}
    {category : MarginCategory} (flat : market.imfFactor = 0)
    (returned : asset conversion amount price market category = .ok weight) :
    base conversion price market category = .ok weight := by
  rw [asset_eq] at returned
  simp only [bind_eq_ok_iff, discounted, if_pos flat] at returned
  obtain ⟨_, _, _, _, given, given_eq, same⟩ := returned
  cases same
  exact given_eq

theorem eq_liabilityWeight_of_flat {market : Market} {amount weight : Fixed}
    {category : MarginCategory} (flat : market.imfFactor = 0)
    (returned : liability amount market category = .ok weight) :
    weight = market.liabilityWeight category := by
  rw [liability_eq] at returned
  simp only [bind_eq_ok_iff, withPremium, if_pos flat] at returned
  obtain ⟨_, _, same⟩ := returned
  cases same
  rfl

end Weight
end SpotMargin
