import Mathlib.Tactic.Linarith
import Mathlib.Tactic.Ring

/-!
# Weightings

A weighting is the pair of weights that apply to one amount: a fraction for a value that is not
negative, a multiple for a negative one.  It turns a value into its weighted value, and a value and
a charge for orders into a contribution to free collateral.  The laws below are about integers only:
how these move with the value, the charge and the weights, with every quotient truncated toward
zero.
-/

namespace SpotMargin

/-- The weights of an amount, in ten-thousandths. -/
structure Weighting where
  /-- The weight of a value that is not negative. -/
  asset : Int
  /-- The weight of a negative value. -/
  liability : Int
  asset_nonneg : 0 ≤ asset
  asset_le_one : asset ≤ 10000
  one_le_liability : 10000 ≤ liability

namespace Weighting

variable (weighting : Weighting) {value greater charge larger : Int}

/-- The value with its weight applied. -/
def apply (value : Int) : Int :=
  (value * if 0 ≤ value then weighting.asset else weighting.liability).tdiv 10000

/-- The contribution once orders to buy at the given charge have been filled. -/
def bid (value charge : Int) : Int :=
  weighting.apply (value + charge) - charge

/-- The contribution once orders to sell at the given charge have been filled. -/
def ask (value charge : Int) : Int :=
  weighting.apply (value - charge) - charge

theorem apply_of_nonneg (value_nonneg : 0 ≤ value) :
    weighting.apply value = value * weighting.asset / 10000 := by
  rw [apply, if_pos value_nonneg]
  exact Int.tdiv_eq_ediv_of_nonneg (Int.mul_nonneg value_nonneg weighting.asset_nonneg)

theorem apply_of_nonpos (value_nonpos : value ≤ 0) :
    weighting.apply value = -(-value * weighting.liability / 10000) := by
  have liability_nonneg : 0 ≤ weighting.liability := by
    have bound := weighting.one_le_liability
    omega
  rcases Int.lt_or_eq_of_le value_nonpos with negative | zero
  · have magnitude := Int.mul_nonneg (by omega : 0 ≤ -value) liability_nonneg
    rw [apply, if_neg (by omega), ← Int.tdiv_eq_ediv_of_nonneg magnitude, Int.neg_mul,
      Int.neg_tdiv, Int.neg_neg]
  · subst zero
    simp [apply]

@[simp]
theorem apply_zero : weighting.apply 0 = 0 := by
  simp [apply]

theorem apply_nonneg (value_nonneg : 0 ≤ value) : 0 ≤ weighting.apply value := by
  rw [weighting.apply_of_nonneg value_nonneg]
  exact Int.ediv_nonneg (Int.mul_nonneg value_nonneg weighting.asset_nonneg) (by decide)

/-- A value above zero grows under the weight by no more than it grows itself. -/
theorem apply_add_le (value_nonneg : 0 ≤ value) (charge_nonneg : 0 ≤ charge) :
    weighting.apply (value + charge) ≤ weighting.apply value + charge := by
  have part : charge * weighting.asset ≤ charge * 10000 :=
    Int.mul_le_mul_of_nonneg_left weighting.asset_le_one charge_nonneg
  rw [weighting.apply_of_nonneg (by omega), weighting.apply_of_nonneg value_nonneg, Int.add_mul]
  omega

/-- A value below zero grows under the weight by no less than it grows itself. -/
theorem apply_add_ge (sum_nonpos : value + charge ≤ 0) (charge_nonneg : 0 ≤ charge) :
    weighting.apply value + charge ≤ weighting.apply (value + charge) := by
  have part : charge * 10000 ≤ charge * weighting.liability :=
    Int.mul_le_mul_of_nonneg_left weighting.one_le_liability charge_nonneg
  have split : -value * weighting.liability =
      -(value + charge) * weighting.liability + charge * weighting.liability := by ring
  rw [weighting.apply_of_nonpos sum_nonpos, weighting.apply_of_nonpos (by omega), split]
  omega

theorem apply_le (value : Int) : weighting.apply value ≤ value := by
  rcases Int.le_total 0 value with nonneg | nonpos
  · have bound := weighting.apply_add_le (le_refl 0) nonneg
    simpa using bound
  · have bound : weighting.apply value + -value ≤ weighting.apply (value + -value) :=
      weighting.apply_add_ge (by omega) (by omega)
    rw [Int.add_right_neg, apply_zero] at bound
    omega

theorem apply_mono (value_le : value ≤ greater) :
    weighting.apply value ≤ weighting.apply greater := by
  rcases Int.le_total 0 value with nonneg | nonpos
  · have product_le := Int.mul_le_mul_of_nonneg_right value_le weighting.asset_nonneg
    rw [weighting.apply_of_nonneg nonneg, weighting.apply_of_nonneg (by omega)]
    exact Int.ediv_le_ediv (by decide) product_le
  · rcases Int.le_total 0 greater with greater_nonneg | greater_nonpos
    · have below := weighting.apply_le value
      have above := weighting.apply_nonneg greater_nonneg
      omega
    · have growth : weighting.apply value + (greater - value) ≤
          weighting.apply (value + (greater - value)) :=
        weighting.apply_add_ge (by omega) (by omega)
      rw [show value + (greater - value) = greater by omega] at growth
      omega

/-- A heavier liability weight never helps. -/
theorem apply_antitone_liability {heavier : Weighting} (value_nonpos : value ≤ 0)
    (liability_le : weighting.liability ≤ heavier.liability) :
    heavier.apply value ≤ weighting.apply value := by
  have product_le := Int.mul_le_mul_of_nonneg_left liability_le (by omega : 0 ≤ -value)
  have quotient_le := Int.ediv_le_ediv (by decide : (0 : Int) < 10000) product_le
  rw [weighting.apply_of_nonpos value_nonpos, heavier.apply_of_nonpos value_nonpos]
  omega

@[simp]
theorem ask_zero (value : Int) : weighting.ask value 0 = weighting.apply value := by
  simp [ask]

theorem bid_mono_value (value_le : value ≤ greater) :
    weighting.bid value charge ≤ weighting.bid greater charge := by
  have weighted := weighting.apply_mono (by omega : value + charge ≤ greater + charge)
  simp only [bid]
  omega

theorem ask_mono (value_le : value ≤ greater) (charge_le : charge ≤ larger) :
    weighting.ask value larger ≤ weighting.ask greater charge := by
  have weighted := weighting.apply_mono (by omega : value - larger ≤ greater - charge)
  simp only [ask]
  omega

theorem ask_le_apply (charge_nonneg : 0 ≤ charge) :
    weighting.ask value charge ≤ weighting.apply value := by
  have bound := weighting.ask_mono (le_refl value) charge_nonneg
  rwa [ask_zero] at bound

/-- Once the orders to buy cover the debt, a lower value and a larger charge never help. -/
theorem bid_mono (covered : 0 ≤ greater + charge) (value_le : value ≤ greater)
    (charge_le : charge ≤ larger) : weighting.bid value larger ≤ weighting.bid greater charge := by
  have growth := weighting.apply_add_le covered (by omega : 0 ≤ larger - charge)
  rw [show greater + charge + (larger - charge) = greater + larger by omega] at growth
  have weighted := weighting.apply_mono (by omega : value + larger ≤ greater + larger)
  simp only [bid]
  omega

/-- Orders to buy that only repay a debt never hurt. -/
theorem apply_le_bid (owed : value + charge ≤ 0) (charge_nonneg : 0 ≤ charge) :
    weighting.apply value ≤ weighting.bid value charge := by
  have growth := weighting.apply_add_ge owed charge_nonneg
  rw [bid]
  omega

theorem bid_le (value charge : Int) : weighting.bid value charge ≤ value := by
  have bound := weighting.apply_le (value + charge)
  rw [bid]
  omega

theorem ask_le (value charge : Int) : weighting.ask value charge ≤ value - 2 * charge := by
  have bound := weighting.apply_le (value - charge)
  rw [ask]
  omega

/-- More orders to buy never improve the worse contribution.  The contribution of the orders to buy
alone rises while they repay a debt and falls after; on the rising side the other contribution is
the worse one. -/
theorem min_le_bid {sale : Int} (charge_nonneg : 0 ≤ charge) (charge_le : charge ≤ larger)
    (sale_nonneg : 0 ≤ sale) :
    min (weighting.bid value larger) (weighting.ask value sale) ≤ weighting.bid value charge := by
  rcases Int.le_total 0 (value + charge) with covered | owed
  · exact (min_le_left _ _).trans (weighting.bid_mono covered (le_refl value) charge_le)
  · calc
      min (weighting.bid value larger) (weighting.ask value sale) ≤ weighting.ask value sale :=
        min_le_right _ _
      _ ≤ weighting.apply value := weighting.ask_le_apply sale_nonneg
      _ ≤ weighting.bid value charge := weighting.apply_le_bid owed charge_nonneg

/-- A lower value and larger charges never improve the worse contribution, where the amount after
the sale has a weighting of its own. -/
theorem min_wider {sold : Weighting} {sale dearer : Int} (value_le : value ≤ greater)
    (charge_nonneg : 0 ≤ charge) (charge_le : charge ≤ larger) (sale_nonneg : 0 ≤ sale)
    (sale_le : sale ≤ dearer)
    (heavier : greater + charge < 0 → weighting.liability ≤ sold.liability) :
    min (weighting.bid value larger) (sold.ask value dearer) ≤
      min (weighting.bid greater charge) (sold.ask greater sale) := by
  have asks : sold.ask value dearer ≤ sold.ask greater sale := sold.ask_mono value_le sale_le
  apply le_min
  · rcases Int.lt_or_le (greater + charge) 0 with owed | covered
    · calc
        min (weighting.bid value larger) (sold.ask value dearer) ≤ sold.ask value dearer :=
          min_le_right _ _
        _ ≤ sold.ask greater sale := asks
        _ ≤ sold.apply greater := sold.ask_le_apply sale_nonneg
        _ ≤ weighting.apply greater :=
          weighting.apply_antitone_liability (by omega) (heavier owed)
        _ ≤ weighting.bid greater charge := weighting.apply_le_bid owed.le charge_nonneg
    · exact (min_le_left _ _).trans (weighting.bid_mono covered value_le charge_le)
  · exact (min_le_right _ _).trans asks

end Weighting
end SpotMargin
