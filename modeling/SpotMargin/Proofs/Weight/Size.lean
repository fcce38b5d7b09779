import SpotMargin.Proofs.Weight

/-!
# Size curves

Both size curves depend on the size through one integer root.  They are given here by their formulas
over the integers, in which the root and every quotient are rounded down, and as functions of the
amount: `size_curves`.  An asset weight does not depend on the sign of the amount and never rises
with its magnitude, and a liability weight never falls as the debt grows.
-/

namespace SpotMargin

open Fixed

namespace Exact

variable {size imfFactor weight root : Int}

theorem sizeRoot_eq_of_isFloorRoot (root_nonneg : 0 ≤ root)
    (floor : IsFloorRoot root (10 * size + 1)) : sizeRoot size = root := by
  rw [sizeRoot, Int.mul_comm]
  exact (floor.eq_sqrt root_nonneg).symm

theorem discounted_eq_floor (imfFactor_pos : 0 < imfFactor) :
    discounted size imfFactor weight =
      min weight (11 * 10 ^ 9 / (10 ^ 6 + sizeRoot size * imfFactor / 10 ^ 5)) := by
  rw [discounted, if_neg imfFactor_pos.ne', Int.tdiv_eq_ediv_of_nonneg (by decide),
    Int.tdiv_eq_ediv_of_nonneg (growth_nonneg size imfFactor_pos.le)]

theorem withPremium_eq_floor (imfFactor_pos : 0 < imfFactor) (weight_nonneg : 0 ≤ weight) :
    withPremium size imfFactor weight =
      max weight (weight - weight / max 1 (10 ^ 6 / imfFactor) +
        sizeRoot size * imfFactor / 10 ^ 7) := by
  rw [withPremium, if_neg imfFactor_pos.ne', Int.tdiv_eq_ediv_of_nonneg weight_nonneg,
    Int.tdiv_eq_ediv_of_nonneg (by decide),
    Int.tdiv_eq_ediv_of_nonneg (growth_nonneg size imfFactor_pos.le)]

end Exact

theorem Fixed.checkedAbs_eq_of_neg {amount opposite : Fixed}
    (negates : opposite.toInt = -amount.toInt) : checkedAbs opposite = checkedAbs amount := by
  have range : InRange amount.toInt.natAbs := by
    have own := amount.inRange
    have negation := opposite.inRange
    rw [InRange] at own negation ⊢
    omega
  have magnitude {x : Fixed} (same : x.toInt.natAbs = amount.toInt.natAbs) :
      checkedAbs x = .ok ⟨_, range⟩ := by
    rw [checkedAbs_eq_ok_iff, same]
  rw [magnitude rfl, magnitude (by omega)]

theorem Weight.asset_eq_of_neg {conversion : Conversion} {amount opposite price : Fixed}
    {market : Market} {category : MarginCategory} (negates : opposite.toInt = -amount.toInt) :
    asset conversion opposite price market category =
      asset conversion amount price market category := by
  rw [asset_eq, asset_eq, checkedAbs_eq_of_neg negates]

namespace Weight

/-- Where they return, the curves are their formulas over the integers, with the root of the size
and every quotient rounded down; curves of no strength leave the weight as it is.  In a valid market
the asset weight of the opposite amount is the same, whether or not it returns.  A larger magnitude
never has a higher asset weight, nor a larger debt a lower liability weight. -/
theorem size_curves :
    (∀ (size imfFactor weight result : Fixed) (root : Int), 0 ≤ size → 0 < imfFactor →
      0 ≤ root → IsFloorRoot root (10 * size.toInt + 1) →
      (discounted size imfFactor weight = .ok result →
        result.toInt =
          min weight.toInt (11 * 10 ^ 9 / (10 ^ 6 + root * imfFactor.toInt / 10 ^ 5))) ∧
      (0 ≤ weight → withPremium size imfFactor weight Precision.weight = .ok result →
        result.toInt =
          max weight.toInt (weight.toInt - weight.toInt / max 1 (10 ^ 6 / imfFactor.toInt) +
            root * imfFactor.toInt / 10 ^ 7))) ∧
    (∀ size weight one : Fixed,
      discounted size 0 weight = .ok weight ∧ withPremium size 0 weight one = .ok weight) ∧
    ∀ market : Market, market.Valid → ∀ category,
      (∀ amount opposite price : Fixed, opposite.toInt = -amount.toInt →
        MarketMath.standard.assetWeight opposite price market category =
          MarketMath.standard.assetWeight amount price market category) ∧
      (∀ amount larger price weight lighter : Fixed,
        amount.toInt.natAbs ≤ larger.toInt.natAbs →
        MarketMath.standard.assetWeight amount price market category = .ok weight →
        MarketMath.standard.assetWeight larger price market category = .ok lighter →
        lighter ≤ weight) ∧
      ∀ amount greater weight heavier : Fixed, 0 ≤ amount → amount ≤ greater →
        MarketMath.standard.liabilityWeight amount market category = .ok weight →
        MarketMath.standard.liabilityWeight greater market category = .ok heavier →
        weight ≤ heavier := by
  refine ⟨?_, ?_, ?_⟩
  · intro size imfFactor weight result root size_nonneg imfFactor_pos root_nonneg floor
    have root_eq := Exact.sizeRoot_eq_of_isFloorRoot root_nonneg floor
    constructor
    · intro returned
      rw [(ensures_discounted weight size_nonneg (Int.le_of_lt imfFactor_pos)).result_of_eq_ok
        returned, Exact.discounted_eq_floor imfFactor_pos, root_eq]
    · intro weight_nonneg returned
      rw [(ensures_withPremium weight size_nonneg).result_of_eq_ok returned,
        Exact.withPremium_eq_floor imfFactor_pos weight_nonneg, root_eq]
  · intro size weight one
    exact ⟨rfl, rfl⟩
  · intro market valid category
    refine ⟨?_, ?_, ?_⟩
    · intro amount opposite price negates
      exact asset_eq_of_neg negates
    · intro amount larger price weight lighter amount_le returned larger_returned
      exact asset_antitone valid amount_le returned larger_returned
    · intro amount greater weight heavier amount_nonneg amount_le returned greater_returned
      exact liability_mono valid amount_nonneg amount_le returned greater_returned

/-- A size just below a hundred tokens, where each quotient leaves a remainder; and in a market with
that strength, a hundred tokens beside twice as many. -/
theorem size_curves_near_hundred_tokens :
    ∃ market : Market, market.Valid ∧
      (7333 : Fixed).toInt = min 8000 (11 * 10 ^ 9 / (10 ^ 6 + 999999 * 50000 / 10 ^ 5)) ∧
      (16399 : Fixed).toInt =
        max 12000 (12000 - 12000 / max 1 (10 ^ 6 / 50000) + 999999 * 50000 / 10 ^ 7) ∧
      MarketMath.standard.assetWeight (-100000000) 10000000 market .maintenance =
        MarketMath.standard.assetWeight 100000000 10000000 market .maintenance ∧
      (6443 : Fixed) ≤ 7333 ∧ (14500 : Fixed) ≤ 16571 := by
  let market : Market := { imfFactor := 50000 }
  have valid : market.Valid := by decide
  have root : IsFloorRoot 999999 (10 * (99999999999 : Fixed).toInt + 1) :=
    ⟨by decide, by decide⟩
  have curves := size_curves.1 99999999999 50000
  obtain ⟨opposite, asset_le, liability_le⟩ := size_curves.2.2 market valid .maintenance
  exact ⟨market, valid,
    (curves 8000 7333 999999 (by decide) (by decide) (by decide) root).1 (by decide +kernel),
    (curves 12000 16399 999999 (by decide) (by decide) (by decide) root).2 (by decide)
      (by decide +kernel),
    opposite 100000000 (-100000000) 10000000 (by rfl),
    asset_le 100000000 (-200000000) 10000000 7333 6443 (by decide) (by decide +kernel)
      (by decide +kernel),
    liability_le 100000000 200000000 14500 16571 (by decide) (by decide) (by decide +kernel)
      (by decide +kernel)⟩

end Weight
end SpotMargin
