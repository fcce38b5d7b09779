import SpotMargin.Proofs.Conversion
import SpotMargin.Proofs.Scenario.Steps

/-!
# The steps of a standard valuation

With the standard conversions every value and every charge is exact, and the amount that is valued
does not depend on the price.
-/

namespace SpotMargin

open Fixed

namespace MarketMath

variable {position : Position} {market : Market} {price other : StrictPrice}
  {category : MarginCategory} {amount value size otherAmount otherValue : Fixed} {side : OrderSide}
  {scenario : Scenario}

@[simp]
theorem standard_tokenValue_zero (decimals : UInt32) (price : Fixed) :
    standard.tokenValue 0 decimals price = .ok 0 :=
  rfl

/-- The charge for orders is their value at the upper bound. -/
theorem Fills.charge_eq
    (fills : standard.Fills amount value side size price market category scenario) :
    -scenario.ordersValue.toInt =
      Exact.value size.toInt market.decimals.toNat price.upper.toInt := by
  obtain ⟨removed, removed_eq, charge⟩ := bind_eq_ok_iff.mp fills.charge
  rw [toInt_tokenValue charge, checkedNeg_eq_ok_iff.mp removed_eq, Exact.value_neg, Int.neg_neg]

/-- The value of a position is that of its amount at the adverse bound. -/
theorem toInt_appraise
    (appraised : standard.appraise position market price = .ok (amount, value)) :
    value.toInt =
      Exact.value amount.toInt market.decimals.toNat (price.adverse amount).toInt := by
  simp only [appraise, bind_eq_ok_iff] at appraised
  obtain ⟨_, _, _, _, _, value_eq, same⟩ := appraised
  cases same
  exact toInt_tokenValue value_eq

theorem amount_eq_of_appraise
    (appraised : standard.appraise position market price = .ok (amount, value))
    (other_appraised : standard.appraise position market other = .ok (otherAmount, otherValue)) :
    otherAmount = amount := by
  simp only [appraise, bind_eq_ok_iff] at appraised other_appraised
  obtain ⟨magnitude, magnitude_eq, _, amount_eq, _, _, same⟩ := appraised
  obtain ⟨otherMagnitude, otherMagnitude_eq, _, otherAmount_eq, _, _, otherSame⟩ := other_appraised
  cases same
  cases otherSame
  rw [magnitude_eq] at otherMagnitude_eq
  cases otherMagnitude_eq
  rw [amount_eq] at otherAmount_eq
  cases otherAmount_eq
  rfl

end MarketMath
end SpotMargin
