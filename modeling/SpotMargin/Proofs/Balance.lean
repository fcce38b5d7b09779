import Mathlib.Data.Rat.Floor
import SpotMargin.Proofs.Unbounded.Market

/-!
# Amounts of balances

The tokens that a balance stands for are a fraction, which is rounded down for a deposit and up for
a debt.  They are converted exactly when the product of the balance and its interest is in range,
they grow with the balance, and the signed amount is on the side of zero that the type of the
balance says.
-/

namespace SpotMargin

open Fixed

namespace Market

variable {market : Market} {type : BalanceType} {balance greater : ℤ}

/-- The growth of the balances of a type. -/
def interest (market : Market) : BalanceType → Fixed
  | .deposit => market.depositInterest
  | .borrow => market.borrowInterest

/-- The tokens that a balance stands for, before rounding. -/
def exactAmount (market : Market) (type : BalanceType) (balance : ℤ) : ℚ :=
  balance * (market.interest type).toInt / 10 ^ (19 - market.decimals.toNat)

theorem Valid.interest_pos (valid : market.Valid) (type : BalanceType) :
    0 < (market.interest type).toInt := by
  cases type with
  | deposit => exact valid.fieldValid .depositInterest
  | borrow => exact valid.fieldValid .borrowInterest

theorem exactAmount_zero : market.exactAmount type 0 = 0 := by
  simp [exactAmount]

theorem exactAmount_add (type : BalanceType) (first second : ℤ) :
    market.exactAmount type (first + second) =
      market.exactAmount type first + market.exactAmount type second := by
  simp only [exactAmount]
  push_cast
  ring

theorem exactAmount_pos (valid : market.Valid) (type : BalanceType) (balance_pos : 0 < balance) :
    0 < market.exactAmount type balance := by
  have interest_pos := valid.interest_pos type
  rw [exactAmount]
  positivity

theorem exactAmount_mono (valid : market.Valid) (type : BalanceType)
    (balance_le : balance ≤ greater) :
    market.exactAmount type balance ≤ market.exactAmount type greater := by
  have interest_pos := valid.interest_pos type
  rw [exactAmount, exactAmount]
  gcongr

end Market

namespace BalanceType

/-- Rounding against the account: down what it holds, and up what it owes. -/
def round : BalanceType → ℚ → ℤ
  | .deposit, amount => ⌊amount⌋
  | .borrow, amount => ⌈amount⌉

theorem round_mono (type : BalanceType) {amount greater : ℚ} (amount_le : amount ≤ greater) :
    type.round amount ≤ type.round greater := by
  cases type with
  | deposit => exact Int.floor_le_floor amount_le
  | borrow => exact Int.ceil_le_ceil amount_le

theorem round_zero (type : BalanceType) : type.round 0 = 0 := by
  cases type with
  | deposit => exact Int.floor_zero
  | borrow => exact Int.ceil_zero

/-- The division of a grown balance by its scale. -/
def divide : BalanceType → Fixed → Fixed → Except Error Fixed
  | .deposit => checkedDiv
  | .borrow => divCeil

end BalanceType

namespace Unbounded

variable {n d quotient : ℤ}

theorem tdiv_eq_floor (n_nonneg : 0 ≤ n) (d_nonneg : 0 ≤ d) : n.tdiv d = ⌊(n / d : ℚ)⌋ := by
  lift d to ℕ using d_nonneg
  rw [Int.tdiv_eq_ediv_of_nonneg n_nonneg, Int.cast_natCast, Rat.floor_intCast_div_natCast]

/-- Of operands that are not negative, the quotient is the least integer that covers the
dividend. -/
theorem divCeil?_bounds (n_nonneg : 0 ≤ n) (d_pos : 0 < d)
    (rounded : divCeil? n d = some quotient) :
    (quotient - 1) * d < n ∧ n ≤ quotient * d := by
  have below := Int.ediv_mul_le n d_pos.ne'
  have above := Int.lt_ediv_add_one_mul_self n d_pos
  rw [divCeil?, div?, if_neg d_pos.ne', Int.tdiv_eq_ediv_of_nonneg n_nonneg] at rounded
  change (if n / d * d = n then some (n / d) else some (n / d + 1)) = _ at rounded
  split at rounded <;> rename_i even <;> cases rounded
  · rw [Int.sub_mul]
    omega
  · rw [Int.add_sub_cancel]
    omega

theorem divCeil?_eq_ceil (n_nonneg : 0 ≤ n) (d_pos : 0 < d)
    (rounded : divCeil? n d = some quotient) : quotient = ⌈(n / d : ℚ)⌉ := by
  obtain ⟨below, covers⟩ := divCeil?_bounds n_nonneg d_pos rounded
  have divisor_pos : (0 : ℚ) < d := by exact_mod_cast d_pos
  refine (Int.ceil_eq_iff.mpr ⟨?_, ?_⟩).symm
  · rw [lt_div_iff₀ divisor_pos]
    exact_mod_cast below
  · rw [div_le_iff₀ divisor_pos]
    exact_mod_cast covers

end Unbounded

theorem BalanceType.exists_divide_eq_ok (type : BalanceType) {grown scale : Fixed}
    (grown_nonneg : 0 ≤ grown.toInt) (scale_pos : 0 < scale.toInt) :
    ∃ amount, type.divide grown scale = .ok amount ∧
      amount.toInt = type.round (grown.toInt / scale.toInt : ℚ) := by
  have quotient := checkedDiv_eq_ok_of_pos (a := grown) scale_pos
  cases type with
  | deposit =>
      refine ⟨_, quotient, ?_⟩
      rw [toInt_div_of_pos scale_pos, Unbounded.tdiv_eq_floor grown_nonneg scale_pos.le]
      rfl
  | borrow =>
      obtain ⟨amount, returned⟩ : ∃ amount, divCeil grown scale = .ok amount := by
        rw [divCeil, quotient]
        exact ⟨_, rfl⟩
      exact ⟨amount, returned, Unbounded.divCeil?_eq_ceil grown_nonneg scale_pos
        (computes_divCeil grown scale amount returned)⟩

namespace Market

variable {market : Market} {type : BalanceType} {balance greater amount larger : Fixed}

theorem tokenAmount_eq (market : Market) (balance : Fixed) (type : BalanceType) :
    market.tokenAmount balance type = (do
      let scale ← market.balanceScale
      type.divide (← checkedMul balance (market.interest type)) scale) := by
  cases type <;> rfl

theorem exists_tokenAmount_eq_ok (valid : market.Valid) (balance_nonneg : 0 ≤ balance.toInt)
    (fits : balance.toInt * (market.interest type).toInt ≤ greatest.toInt) :
    ∃ amount, market.tokenAmount balance type = .ok amount ∧
      amount.toInt = type.round (market.exactAmount type balance.toInt) := by
  have grown_nonneg := Int.mul_nonneg balance_nonneg (valid.interest_pos type).le
  have range : InRange (balance.toInt * (market.interest type).toInt) :=
    ⟨by omega, Int.lt_of_le_of_lt fits greatest.inRange.2⟩
  have grown_eq := toInt_mul_of_inRange range
  obtain ⟨scale, scale_returned, scale_eq⟩ := exists_balanceScale_eq_ok valid
  obtain ⟨amount, returned, amount_eq⟩ :=
    type.exists_divide_eq_ok (grown_eq ▸ grown_nonneg) (scale_eq ▸ Exact.unit_pos _)
  refine ⟨amount, ?_, ?_⟩
  · rw [tokenAmount_eq, scale_returned, ok_bind, checkedMul_eq_ok_of_inRange range, ok_bind,
      returned]
  · rw [amount_eq, grown_eq, scale_eq, exactAmount]
    push_cast
    rfl

theorem tokenAmount_eq_error (valid : market.Valid)
    (exceeds : greatest.toInt < balance.toInt * (market.interest type).toInt) :
    market.tokenAmount balance type =
      .error (.arithmetic (.overflow .mul (balance.toInt * (market.interest type).toInt))) := by
  have out : ¬InRange (balance.toInt * (market.interest type).toInt) :=
    fun range => absurd range.2 (Int.not_lt.mpr exceeds)
  obtain ⟨scale, scale_returned, -⟩ := exists_balanceScale_eq_ok valid
  rw [tokenAmount_eq, scale_returned, ok_bind, checkedMul, checked_eq_error_iff.mpr ⟨out, rfl⟩]
  rfl

theorem grown_le_of_tokenAmount_eq_ok (valid : market.Valid)
    (returned : market.tokenAmount balance type = .ok amount) :
    balance.toInt * (market.interest type).toInt ≤ greatest.toInt := by
  by_contra exceeds
  rw [tokenAmount_eq_error valid (not_le.mp exceeds)] at returned
  cases returned

theorem toInt_tokenAmount (valid : market.Valid) (balance_nonneg : 0 ≤ balance.toInt)
    (returned : market.tokenAmount balance type = .ok amount) :
    amount.toInt = type.round (market.exactAmount type balance.toInt) := by
  obtain ⟨result, result_returned, result_eq⟩ :=
    exists_tokenAmount_eq_ok valid balance_nonneg (grown_le_of_tokenAmount_eq_ok valid returned)
  rw [returned] at result_returned
  cases result_returned
  exact result_eq

theorem tokenAmount_mono (valid : market.Valid) (balance_nonneg : 0 ≤ balance.toInt)
    (balance_le : balance ≤ greater) (returned : market.tokenAmount balance type = .ok amount)
    (greater_returned : market.tokenAmount greater type = .ok larger) : amount ≤ larger := by
  rw [le_iff] at balance_le ⊢
  rw [toInt_tokenAmount valid balance_nonneg returned,
    toInt_tokenAmount valid (balance_nonneg.trans balance_le) greater_returned]
  exact type.round_mono (exactAmount_mono valid type balance_le)

theorem tokenAmount_nonneg (valid : market.Valid) (balance_nonneg : 0 ≤ balance.toInt)
    (returned : market.tokenAmount balance type = .ok amount) : 0 ≤ amount.toInt := by
  rw [toInt_tokenAmount valid balance_nonneg returned]
  calc
    0 = type.round (market.exactAmount type 0) := by rw [exactAmount_zero, type.round_zero]
    _ ≤ type.round (market.exactAmount type balance.toInt) :=
      type.round_mono (exactAmount_mono valid type balance_nonneg)

/-- In any market, and for a balance of either sign, the amount of a deposit is the truncated
quotient. -/
theorem tokenAmount_deposit_eq (returned : market.tokenAmount balance .deposit = .ok amount) :
    amount.toInt =
      (balance.toInt * market.depositInterest.toInt).tdiv (10 ^ (19 - market.decimals.toNat)) := by
  have evaluated := market.computes_tokenAmount balance .deposit amount returned
  rw [Unbounded.tokenAmount?, Unbounded.mulDiv?, Unbounded.div?,
    if_neg (Exact.unit_pos _).ne'] at evaluated
  exact (Option.some.inj evaluated).symm

end Market

namespace BalanceType

variable {magnitude amount : Fixed}

theorem toInt_signedAmount {type : BalanceType}
    (returned : type.signedAmount magnitude = .ok amount) :
    amount.toInt = Unbounded.signedAmount magnitude.toInt type :=
  (Option.some.inj (type.computes_signedAmount magnitude amount returned)).symm

theorem exists_signedAmount_borrow (magnitude_nonneg : 0 ≤ magnitude.toInt) :
    ∃ signed, borrow.signedAmount magnitude = .ok signed ∧ signed.toInt = -magnitude.toInt := by
  have range : InRange (-magnitude.toInt) := by
    have high := magnitude.inRange.2
    rw [InRange]
    omega
  have unsigned : checkedAbs magnitude = .ok magnitude :=
    checkedAbs_eq_ok_iff.mpr (Int.natAbs_of_nonneg magnitude_nonneg).symm
  refine ⟨⟨_, range⟩, ?_, rfl⟩
  rw [signedAmount, unsigned, ok_bind]
  exact checkedNeg_eq_ok_iff.mpr rfl

end BalanceType
end SpotMargin
