import SpotMargin.Proofs.Balance

/-!
# Splitting a balance never pays

Balances are rounded against the account, down for a deposit and up for a debt, and the exact
amount is additive.  So the parts of a deposit never make more tokens than the whole, nor the parts
of a debt fewer: `tokenAmount_rounds_against_account`.
-/

namespace SpotMargin
namespace Market

open Fixed

variable {market : Market} {type : BalanceType} {balance amount : Fixed}

/-- Parts of a balance that is converted are converted too. -/
theorem exists_tokenAmount_of_le (valid : market.Valid) {part : Fixed}
    (part_nonneg : 0 ≤ part.toInt) (part_le : part.toInt ≤ balance.toInt)
    (returned : market.tokenAmount balance type = .ok amount) :
    ∃ amount, market.tokenAmount part type = .ok amount ∧
      amount.toInt = type.round (market.exactAmount type part.toInt) := by
  apply exists_tokenAmount_eq_ok valid part_nonneg
  exact (Int.mul_le_mul_of_nonneg_right part_le (valid.interest_pos type).le).trans
    (grown_le_of_tokenAmount_eq_ok valid returned)

/-- A balance that is converted is converted in two parts too, each rounded by itself. -/
theorem exists_parts_of_tokenAmount_eq_ok (valid : market.Valid) {first second whole : Fixed}
    (first_nonneg : 0 ≤ first.toInt) (second_nonneg : 0 ≤ second.toInt)
    (sum : whole.toInt = first.toInt + second.toInt)
    (returned : market.tokenAmount whole type = .ok amount) :
    ∃ left right, market.tokenAmount first type = .ok left ∧
      market.tokenAmount second type = .ok right ∧
      left.toInt = type.round (market.exactAmount type first.toInt) ∧
      right.toInt = type.round (market.exactAmount type second.toInt) ∧
      amount.toInt = type.round
        (market.exactAmount type first.toInt + market.exactAmount type second.toInt) := by
  obtain ⟨left, left_returned, left_eq⟩ :=
    exists_tokenAmount_of_le valid first_nonneg (by omega) returned
  obtain ⟨right, right_returned, right_eq⟩ :=
    exists_tokenAmount_of_le valid second_nonneg (by omega) returned
  have amount_eq := toInt_tokenAmount valid (by omega) returned
  rw [sum, exactAmount_add] at amount_eq
  exact ⟨left, right, left_returned, right_returned, left_eq, right_eq, amount_eq⟩

theorem one_le_of_tokenAmount_eq_ok (valid : market.Valid) (balance_pos : 0 < balance.toInt)
    (returned : market.tokenAmount balance .borrow = .ok amount) : 1 ≤ amount.toInt := by
  rw [toInt_tokenAmount valid balance_pos.le returned]
  exact Int.one_le_ceil_iff.mpr (exactAmount_pos valid .borrow balance_pos)

/-- The tokens of a balance are rounded down for a deposit and up for a debt, and the conversion
fails exactly when the product of the balance and its interest exceeds the range.  A deposit counts
as zero or more, and a debt as minus one or less.  Two parts of a deposit never make more tokens
than the whole, and two parts of a debt never fewer; the difference is at most one. -/
theorem tokenAmount_rounds_against_account (valid : market.Valid) :
    (∀ (type : BalanceType) (balance : Fixed), 0 ≤ balance →
      (balance.toInt * (market.interest type).toInt ≤ greatest.toInt →
        ∃ amount, market.tokenAmount balance type = .ok amount ∧
          amount.toInt = type.round (market.exactAmount type balance.toInt)) ∧
      (greatest.toInt < balance.toInt * (market.interest type).toInt →
        ∃ fault, market.tokenAmount balance type = .error fault ∧ fault.kind = .overflow)) ∧
    (∀ balance amount : Fixed, 0 ≤ balance → market.tokenAmount balance .deposit = .ok amount →
      ∃ signed, BalanceType.deposit.signedAmount amount = .ok signed ∧ 0 ≤ signed.toInt) ∧
    (∀ balance amount : Fixed, 0 < balance → market.tokenAmount balance .borrow = .ok amount →
      ∃ signed, BalanceType.borrow.signedAmount amount = .ok signed ∧ signed.toInt ≤ -1) ∧
    ∀ first second whole amount : Fixed,
      0 ≤ first → 0 ≤ second → whole.toInt = first.toInt + second.toInt →
      (market.tokenAmount whole .deposit = .ok amount →
        ∃ left right, market.tokenAmount first .deposit = .ok left ∧
          market.tokenAmount second .deposit = .ok right ∧
          left.toInt + right.toInt ≤ amount.toInt ∧
          amount.toInt ≤ left.toInt + right.toInt + 1) ∧
      (market.tokenAmount whole .borrow = .ok amount →
        ∃ left right, market.tokenAmount first .borrow = .ok left ∧
          market.tokenAmount second .borrow = .ok right ∧
          amount.toInt ≤ left.toInt + right.toInt ∧
          left.toInt + right.toInt ≤ amount.toInt + 1) := by
  refine ⟨?_, ?_, ?_, ?_⟩
  · intro type balance balance_nonneg
    exact ⟨exists_tokenAmount_eq_ok valid balance_nonneg,
      fun exceeds => ⟨_, tokenAmount_eq_error valid exceeds, rfl⟩⟩
  · intro balance amount balance_nonneg returned
    exact ⟨amount, rfl, tokenAmount_nonneg valid balance_nonneg returned⟩
  · intro balance amount balance_pos returned
    have one_le := one_le_of_tokenAmount_eq_ok valid balance_pos returned
    obtain ⟨signed, signed_returned, signed_eq⟩ :=
      BalanceType.exists_signedAmount_borrow (by omega : 0 ≤ amount.toInt)
    exact ⟨signed, signed_returned, by omega⟩
  · intro first second whole amount first_nonneg second_nonneg sum
    constructor
    · intro returned
      obtain ⟨left, right, left_returned, right_returned, left_eq, right_eq, amount_eq⟩ :=
        exists_parts_of_tokenAmount_eq_ok valid first_nonneg second_nonneg sum returned
      refine ⟨left, right, left_returned, right_returned, ?_⟩
      rw [left_eq, right_eq, amount_eq]
      exact ⟨Int.le_floor_add _ _, sub_le_iff_le_add.mp (Int.le_floor_add_floor _ _)⟩
    · intro returned
      obtain ⟨left, right, left_returned, right_returned, left_eq, right_eq, amount_eq⟩ :=
        exists_parts_of_tokenAmount_eq_ok valid first_nonneg second_nonneg sum returned
      refine ⟨left, right, left_returned, right_returned, ?_⟩
      rw [left_eq, right_eq, amount_eq]
      exact ⟨Int.ceil_add_le _ _, Int.ceil_add_ceil_le _ _⟩

/-- Two balances of one, each worth one token and a half: as deposits the whole makes a token more
than its parts, and as debts a token less. -/
theorem tokenAmount_rounds_against_account_at_halves :
    ∃ market : Market, market.Valid ∧
      (∃ left right, market.tokenAmount 1 .deposit = .ok left ∧
        market.tokenAmount 1 .deposit = .ok right ∧
        left.toInt + right.toInt ≤ 3 ∧ 3 ≤ left.toInt + right.toInt + 1) ∧
      (∃ left right, market.tokenAmount 1 .borrow = .ok left ∧
        market.tokenAmount 1 .borrow = .ok right ∧
        3 ≤ left.toInt + right.toInt ∧ left.toInt + right.toInt ≤ 3 + 1) ∧
      (∃ signed, BalanceType.borrow.signedAmount 2 = .ok signed ∧ signed.toInt ≤ -1) ∧
      ∃ fault, market.tokenAmount greatest .borrow = .error fault ∧ fault.kind = .overflow := by
  let market : Market := { decimals := 18, depositInterest := 15, borrowInterest := 15 }
  have valid : market.Valid := by decide
  have held : market.tokenAmount 2 .deposit = .ok 3 := by decide +kernel
  have owed : market.tokenAmount 2 .borrow = .ok 3 := by decide +kernel
  obtain ⟨converts, -, debts, parts⟩ := tokenAmount_rounds_against_account valid
  obtain ⟨deposits, borrows⟩ := parts 1 1 2 3 (by decide) (by decide) (by rfl)
  exact ⟨market, valid, deposits held, borrows owed,
    debts 1 2 (by decide) (by decide +kernel),
    (converts .borrow greatest (by decide)).2 (by decide)⟩

end Market
end SpotMargin
