import SpotMargin.Proofs.Scenario.Steps

/-!
# The worst case as a selection

Where nothing is worth nothing, filling an order of size zero is the valuation without orders: the
same scenario, the same failure and the same events.  A position without orders is then no special
case, and every worst case is selected from two fills: `worstCase_eq_selection`.
-/

namespace SpotMargin

open Fixed

theorem Fixed.checkedNeg_zero : checkedNeg 0 = .ok 0 :=
  checkedNeg_eq_ok_iff.mpr rfl

theorem Fixed.checkedAdd_zero (a : Fixed) : checkedAdd a 0 = .ok a :=
  checkedAdd_eq_ok_iff.mpr (Int.add_zero _).symm

theorem OrderSide.fillAmount_zero (side : OrderSide) (amount : Fixed) :
    side.fillAmount amount 0 = .ok amount := by
  rw [fillAmount_eq_ok_iff, toInt_zero, Int.mul_zero, Int.add_zero]

theorem OrderSide.fillValue_zero (side : OrderSide) (value : Fixed) :
    side.fillValue value 0 = .ok value := by
  rw [fillValue_eq_ok_iff, toInt_zero, Int.mul_zero, Int.sub_zero]

theorem Logged.lift_ok_bind {α β : Type} (a : α) (next : α → Logged β) :
    ((liftM (Except.ok a : Except Error α) : Logged α) >>= next) = next a :=
  pure_bind a next

theorem Scenario.select_worseSide (bids asks : Scenario) :
    select bids asks (worseSide bids asks) =
      if asks.freeCollateral < bids.freeCollateral then asks else bids := by
  rw [worseSide]
  split <;> rfl

namespace MarketMath

variable {math : MarketMath} {position : Position} {market : Market} {price : StrictPrice}

/-- A fill of size zero passes through the same steps as the valuation without orders. -/
theorem valueFilled_zero (worthless : math.tokenValue 0 market.decimals price.upper = .ok 0)
    (amount value : Fixed) (side : OrderSide) (category : MarginCategory) :
    math.valueFilled amount value side 0 price market category =
      math.valueUnfilled amount value price market category := by
  have nonneg : ¬(0 : Fixed) < 0 := Int.lt_irrefl 0
  rw [valueFilled_eq, if_neg nonneg, checkedNeg_zero, Logged.lift_ok_bind, worthless,
    Logged.lift_ok_bind, OrderSide.fillAmount_zero, Logged.lift_ok_bind, OrderSide.fillValue_zero,
    Logged.lift_ok_bind, valueUnfilled]
  simp only [checkedAdd_zero, Logged.lift_ok_bind]

/-- Selecting from two runs of one computation changes nothing. -/
private theorem bind_select_self (x : Except Error Scenario) :
    (do
      let bids ← x
      let asks ← x
      return if asks.freeCollateral < bids.freeCollateral then asks else bids) = x := by
  cases x with
  | error error => rfl
  | ok scenario => simp only [ok_bind, ite_self]; rfl

/-- The valuation of the balance, and what the worst case does with it. -/
private theorem result_worstCase (nonneg : position.NonNegative) (category : MarginCategory) :
    (math.worstCase position market price category).result = do
      let (amount, value) ← math.appraise position market price
      if position.openBids = 0 ∧ position.openAsks = 0 then
        (math.valueUnfilled amount value price market category).result
      else do
        let bids ←
          (math.valueFilled amount value .bid position.openBids price market category).result
        let asks ←
          (math.valueFilled amount value .ask position.openAsks price market category).result
        return if asks.freeCollateral < bids.freeCollateral then asks else bids := by
  rw [worstCase, Position.check_eq_ok_iff.mpr nonneg, Logged.lift_ok_bind]
  simp only [Logged.result_bind, Logged.result_lift, appraise, bind_assoc, pure_bind]
  refine bind_congr fun magnitude => bind_congr fun amount => bind_congr fun value => ?_
  split
  · rfl
  · simp only [Logged.result_bind, Logged.result_report, Logged.result_pure, ok_bind,
      Scenario.select_worseSide]
    rfl

/-- Where nothing is worth nothing, whatever the conversions and the weight curves are otherwise, a
fill of size zero is the valuation without orders.  So the worst case of any position is selected
from its two fills, the bids before the asks, and fails as the first of them that fails. -/
theorem worstCase_eq_selection
    (worthless : ∀ decimals price, math.tokenValue 0 decimals price = .ok 0) :
    (∀ amount value side price market category,
      math.valueFilled amount value side 0 price market category =
        math.valueUnfilled amount value price market category) ∧
    ∀ position market price category, position.NonNegative →
      (math.worstCase position market price category).result = do
        let (amount, value) ← math.appraise position market price
        let bids ←
          (math.valueFilled amount value .bid position.openBids price market category).result
        let asks ←
          (math.valueFilled amount value .ask position.openAsks price market category).result
        return if asks.freeCollateral < bids.freeCollateral then asks else bids := by
  refine ⟨fun amount value side price market category =>
    valueFilled_zero (worthless _ _) amount value side category, ?_⟩
  intro position market price category nonneg
  rw [result_worstCase nonneg]
  cases math.appraise position market price with
  | error error => rfl
  | ok appraised =>
      obtain ⟨amount, value⟩ := appraised
      simp only [ok_bind]
      split
      · rename_i none_open
        rw [none_open.1, none_open.2, valueFilled_zero (worthless _ _),
          valueFilled_zero (worthless _ _), bind_select_self]
      · rfl

/-- With forty decimal places every other amount would be out of reach of the prices. -/
theorem worstCase_eq_selection_beyond_prices :
    ∃ math : MarketMath, ∃ market : Market,
      (∀ decimals price, math.tokenValue 0 decimals price = .ok 0) ∧
      math.tokenValue 1 market.decimals 10000000 = .error (.arithmetic (.powerOfTen 40)) ∧
      (math.worstCase { scaledBalance := 1000 } market { current := 10000000 } .initial).result =
        .ok {
          tokenAmount := 1000, tokenValue := 1000, weight := 8000, weightedTokenValue := 800
          freeCollateral := 800 } ∧
      (math.worstCase { scaledBalance := 1000 } market { current := 10000000 } .initial).result =
        do
          let bids ←
            (math.valueFilled 1000 1000 .bid 0 { current := 10000000 } market .initial).result
          let asks ←
            (math.valueFilled 1000 1000 .ask 0 { current := 10000000 } market .initial).result
          return if asks.freeCollateral < bids.freeCollateral then asks else bids := by
  refine ⟨{ MarketMath.standard with
    tokenAmount := fun balance _ _ => .ok balance
    strictTokenValue := fun amount _ _ => .ok amount
    assetWeight := fun _ _ _ _ => .ok 8000 }, { decimals := 40 }, fun _ _ => rfl, rfl, ?_, ?_⟩
  · decide +kernel
  · exact (worstCase_eq_selection fun _ _ => rfl).2 { scaledBalance := 1000 } _ _ _ (by decide)

end MarketMath
end SpotMargin
