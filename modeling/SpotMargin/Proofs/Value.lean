import SpotMargin.Proofs.Conversion

/-!
# Values between the bounds of a price

A strict price values an amount at the bound that is adverse to its holder, which is the least value
between the bounds: `strictTokenValue_adverse`.  A value changes its sign with the amount, since it
is truncated toward zero, and at a price that is not negative it grows with the amount.
-/

namespace SpotMargin

open Fixed

namespace StrictPrice

variable {price : StrictPrice} {amount greater spot : Fixed}

theorem lower_le_upper (price : StrictPrice) : price.lower ≤ price.upper :=
  Int.le_trans price.lower_le_current price.current_le_upper

theorem lower_le_adverse (price : StrictPrice) (amount : Fixed) :
    price.lower ≤ price.adverse amount := by
  rw [adverse]
  split
  · exact Int.le_refl _
  · exact price.lower_le_upper

theorem adverse_le_upper (price : StrictPrice) (amount : Fixed) :
    price.adverse amount ≤ price.upper := by
  rw [adverse]
  split
  · exact price.lower_le_upper
  · exact Int.le_refl _

/-- No price between the bounds values an amount any lower than the adverse bound does. -/
theorem value_adverse_le (decimals : Nat) (lower_le : price.lower ≤ spot)
    (le_upper : spot ≤ price.upper) :
    Exact.value amount.toInt decimals (price.adverse amount).toInt ≤
      Exact.value amount.toInt decimals spot.toInt := by
  rw [adverse]
  split <;> rename_i held <;> rw [lt_iff, toInt_zero] at held
  · exact Exact.value_mono_price decimals held.le lower_le
  · exact Exact.value_antitone_price decimals (not_lt.mp held) le_upper

/-- No amount is worth more than a greater one, each at its own adverse bound. -/
theorem value_mono (decimals : Nat) (lower_nonneg : 0 ≤ price.lower.toInt)
    (amount_le : amount.toInt ≤ greater.toInt) :
    Exact.value amount.toInt decimals (price.adverse amount).toInt ≤
      Exact.value greater.toInt decimals (price.adverse greater).toInt := by
  have lower_le := price.lower_le_adverse greater
  calc
    Exact.value amount.toInt decimals (price.adverse amount).toInt ≤
        Exact.value amount.toInt decimals (price.adverse greater).toInt :=
      value_adverse_le decimals lower_le (price.adverse_le_upper greater)
    _ ≤ Exact.value greater.toInt decimals (price.adverse greater).toInt :=
      Exact.value_mono_amount decimals amount_le (Int.le_trans lower_nonneg lower_le)

end StrictPrice

section Values

variable {amount other price spot value bound result : Fixed} {decimals : UInt32}

theorem tokenValue_neg (negated : other.toInt = -amount.toInt)
    (returned : tokenValue amount decimals price = .ok value)
    (other_returned : tokenValue other decimals price = .ok result) :
    result.toInt = -value.toInt := by
  rw [toInt_tokenValue returned, toInt_tokenValue other_returned, negated, Exact.value_neg]

theorem tokenValue_mono (price_nonneg : 0 ≤ price) (amount_le : amount ≤ other)
    (returned : tokenValue amount decimals price = .ok value)
    (other_returned : tokenValue other decimals price = .ok result) : value ≤ result := by
  rw [le_iff, toInt_tokenValue returned, toInt_tokenValue other_returned]
  exact Exact.value_mono_amount _ amount_le price_nonneg

variable {strict : StrictPrice}

theorem strictTokenValue_le (lower_le : strict.lower ≤ spot) (le_upper : spot ≤ strict.upper)
    (returned : strictTokenValue amount decimals strict = .ok value)
    (spot_returned : tokenValue amount decimals spot = .ok result) : value ≤ result := by
  rw [le_iff, toInt_tokenValue returned, toInt_tokenValue spot_returned]
  exact StrictPrice.value_adverse_le _ lower_le le_upper

/-- The adverse bound gives the lesser of the values at both bounds. -/
theorem strictTokenValue_eq_min
    (lower_returned : tokenValue amount decimals strict.lower = .ok value)
    (upper_returned : tokenValue amount decimals strict.upper = .ok result) :
    strictTokenValue amount decimals strict = .ok (min value result) := by
  have attained : strictTokenValue amount decimals strict = .ok value ∨
      strictTokenValue amount decimals strict = .ok result := by
    rw [strictTokenValue, StrictPrice.adverse]
    split
    · exact .inl lower_returned
    · exact .inr upper_returned
  rcases attained with returned | returned
  · have least : value.toInt ≤ result.toInt :=
      strictTokenValue_le strict.lower_le_upper (Int.le_refl _) returned upper_returned
    rw [returned, Except.ok.injEq, Fixed.ext_iff, toInt_min, min_eq_left least]
  · have least : result.toInt ≤ value.toInt :=
      strictTokenValue_le (Int.le_refl _) strict.lower_le_upper returned lower_returned
    rw [returned, Except.ok.injEq, Fixed.ext_iff, toInt_min, min_eq_right least]

end Values

/-- Where the values are returned, a strict price values an amount at the lesser of the values at
both bounds, and no higher than any price between them does.  The opposite amount has the opposite
value, and at a price that is not negative a greater amount is worth no less. -/
theorem strictTokenValue_adverse (decimals : UInt32) :
    (∀ (amount : Fixed) (strict : StrictPrice) (low high : Fixed),
      tokenValue amount decimals strict.lower = .ok low →
      tokenValue amount decimals strict.upper = .ok high →
      strictTokenValue amount decimals strict = .ok (min low high)) ∧
    (∀ (amount : Fixed) (strict : StrictPrice) (spot value between : Fixed),
      strict.lower ≤ spot → spot ≤ strict.upper →
      strictTokenValue amount decimals strict = .ok value →
      tokenValue amount decimals spot = .ok between → value ≤ between) ∧
    (∀ amount opposite price value negated : Fixed,
      opposite.toInt = -amount.toInt →
      tokenValue amount decimals price = .ok value →
      tokenValue opposite decimals price = .ok negated → negated.toInt = -value.toInt) ∧
    ∀ amount greater price value larger : Fixed,
      0 ≤ price → amount ≤ greater →
      tokenValue amount decimals price = .ok value →
      tokenValue greater decimals price = .ok larger → value ≤ larger := by
  refine ⟨?_, ?_, ?_, ?_⟩
  · intro amount strict low high low_returned high_returned
    exact strictTokenValue_eq_min low_returned high_returned
  · intro amount strict spot value between lower_le le_upper returned between_returned
    exact strictTokenValue_le lower_le le_upper returned between_returned
  · intro amount opposite price value negated negates returned negated_returned
    exact tokenValue_neg negates returned negated_returned
  · intro amount greater price value larger price_nonneg amount_le returned larger_returned
    exact tokenValue_mono price_nonneg amount_le returned larger_returned

/-- A debt at bounds of both signs; at a price between them its value is truncated to zero. -/
theorem strictTokenValue_adverse_of_debt :
    strictTokenValue (-35) 2 { current := -7, twap := some 11 } = .ok (min 2 (-3)) ∧
      (-3 : Fixed) ≤ 0 ∧ (3 : Fixed).toInt = -(-3 : Fixed).toInt ∧ (-3 : Fixed) ≤ 13 := by
  have at_lower : tokenValue (-35) 2 (-7) = .ok 2 := by rfl
  have at_upper : tokenValue (-35) 2 11 = .ok (-3) := by rfl
  have between : tokenValue (-35) 2 2 = .ok 0 := by rfl
  have strict : strictTokenValue (-35) 2 { current := -7, twap := some 11 } = .ok (-3) := by rfl
  obtain ⟨least, below, negates, grows⟩ := strictTokenValue_adverse 2
  exact ⟨least (-35) { current := -7, twap := some 11 } 2 (-3) at_lower at_upper,
    below (-35) { current := -7, twap := some 11 } 2 (-3) 0 (by decide) (by decide) strict between,
    negates (-35) 35 11 (-3) 3 (by rfl) at_upper (by rfl),
    grows (-35) 120 11 (-3) 13 (by decide) (by decide) at_upper (by rfl)⟩

end SpotMargin
