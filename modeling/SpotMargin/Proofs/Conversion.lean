import SpotMargin.Conversion
import SpotMargin.Proofs.Exact
import SpotMargin.Proofs.Fixed.Root

/-!
# Outcomes of conversions

In a valid market a conversion fails only when an exact sum, difference, product or negation is out
of range.  A value that is returned is the exact one.
-/

namespace SpotMargin

open Fixed

namespace Market

variable {market : Market}

theorem Valid.fieldValid (valid : market.Valid) (field : Field) : market.FieldValid field :=
  valid.2 field field.mem_all

theorem Valid.decimals_le_max (valid : market.Valid) : market.decimals ≤ 38 :=
  UInt32.le_trans valid.1 (by decide)

theorem exists_balanceScale_eq_ok (valid : market.Valid) :
    ∃ scale, market.balanceScale = .ok scale ∧ scale.toInt = 10 ^ (19 - market.decimals.toNat) := by
  have places : (Precision.balanceDecimals - market.decimals).toNat =
      19 - market.decimals.toNat :=
    UInt32.toNat_sub_of_le _ _ valid.1
  have small : Precision.balanceDecimals - market.decimals ≤ 38 := by
    rw [UInt32.le_iff_toNat_le, places]
    exact Nat.le_trans (Nat.sub_le _ _) (by decide)
  rw [balanceScale, if_neg (UInt32.not_lt.mpr valid.1), ← places, pow10,
    if_neg (UInt32.not_lt.mpr small)]
  exact ⟨_, rfl, toInt_tenTo (UInt32.le_iff_toNat_le.mp small)⟩

theorem ensures_balanceScale (valid : market.Valid) :
    Ensures Error.LeavesRange (·.toInt = 10 ^ (19 - market.decimals.toNat))
      market.balanceScale := by
  obtain ⟨scale, returned, scale_eq⟩ := exists_balanceScale_eq_ok valid
  rw [returned]
  exact scale_eq

end Market

namespace Fixed

theorem ensures_divCeil (a : Fixed) {b : Fixed} (b_pos : 0 < b.toInt) :
    Ensures Error.LeavesRange (fun _ => True) (divCeil a b) :=
  (ensures_checkedDiv a b_pos).bind fun _ _ => trivial

end Fixed

theorem Market.ensures_tokenAmount {market : Market} (valid : market.Valid) (balance : Fixed)
    (type : BalanceType) :
    Ensures Error.LeavesRange (fun _ => True) (market.tokenAmount balance type) := by
  refine (ensures_balanceScale valid).bind ?_
  intro scale scale_eq
  have scale_pos : 0 < scale.toInt := by
    rw [scale_eq]
    exact Int.pow_pos (by decide)
  cases type with
  | deposit => exact (ensures_mulDiv _ _ scale_pos).mono fun _ _ => trivial
  | borrow =>
      refine (ensures_checkedMul balance market.borrowInterest).bind ?_
      intro grown _
      exact ensures_divCeil grown scale_pos

theorem BalanceType.ensures_signedAmount (type : BalanceType) (amount : Fixed) :
    Ensures Error.LeavesRange (fun _ => True) (type.signedAmount amount) := by
  cases type with
  | deposit => trivial
  | borrow =>
      refine (ensures_checkedAbs amount).bind ?_
      intro magnitude _
      exact (ensures_checkedNeg magnitude).mono fun _ _ => trivial

theorem ensures_tokenValue (amount price : Fixed) {decimals : UInt32} (small : decimals ≤ 38) :
    Ensures Error.LeavesRange
      (·.toInt = Exact.value amount.toInt decimals.toNat price.toInt)
      (tokenValue amount decimals price) := by
  rw [tokenValue]
  split
  · rename_i zero
    rw [zero]
    exact Exact.value_zero.symm
  · refine (ensures_pow10 small).bind ?_
    intro unit unit_eq
    rw [Exact.value, ← unit_eq]
    apply ensures_mulDiv
    rw [unit_eq]
    exact Int.pow_pos (by decide)

theorem ensures_strictTokenValue (amount : Fixed) (price : StrictPrice) {decimals : UInt32}
    (small : decimals ≤ 38) :
    Ensures Error.LeavesRange
      (·.toInt = Exact.value amount.toInt decimals.toNat (price.adverse amount).toInt)
      (strictTokenValue amount decimals price) :=
  ensures_tokenValue amount (price.adverse amount) small

/-- A value is exact whenever it is returned, also with more decimal places than a market may
have. -/
theorem toInt_tokenValue {amount price result : Fixed} {decimals : UInt32}
    (returned : tokenValue amount decimals price = .ok result) :
    result.toInt = Exact.value amount.toInt decimals.toNat price.toInt := by
  by_cases small : decimals ≤ 38
  · exact (ensures_tokenValue amount price small).result_of_eq_ok returned
  · -- The power of ten fails, so only an amount of zero has a value.
    rw [UInt32.not_le] at small
    rw [tokenValue] at returned
    split at returned
    · rename_i zero
      cases returned
      rw [zero]
      exact Exact.value_zero.symm
    · rw [pow10, if_pos small] at returned
      cases returned

end SpotMargin
