import Mathlib.Data.Int.Sqrt
import Mathlib.Tactic.Linarith

/-!
# Valuation over the integers

The formulas of values and weights over integers without a range.  Whenever the computation in
fixed-point integers returns, it returns what these formulas give.  Divisions truncate toward zero.
-/

namespace SpotMargin
namespace Exact

/-- The value of an amount at a price. -/
def value (amount : Int) (decimals : Nat) (price : Int) : Int :=
  (amount * price).tdiv (10 ^ decimals)

theorem unit_pos (decimals : Nat) : (0 : Int) < 10 ^ decimals :=
  Int.pow_pos (by decide)

section Value

variable {amount greater price higher : Int} {decimals : Nat}

@[simp]
theorem value_zero : value 0 decimals price = 0 := by
  simp [value]

@[simp]
theorem value_neg : value (-amount) decimals price = -value amount decimals price := by
  rw [value, value, Int.neg_mul, Int.neg_tdiv]

/-- A value does not depend on the unit of the amount: more decimal places make a smaller unit. -/
theorem value_redenominated (places : Nat) :
    value (10 ^ places * amount) (decimals + places) price = value amount decimals price := by
  rw [value, value, Int.mul_assoc, Nat.add_comm, Int.pow_add]
  exact Int.mul_tdiv_mul_of_pos _ _ (unit_pos places)

variable (decimals)

theorem value_nonneg (amount_nonneg : 0 ≤ amount) (price_nonneg : 0 ≤ price) :
    0 ≤ value amount decimals price :=
  Int.tdiv_nonneg (Int.mul_nonneg amount_nonneg price_nonneg) (unit_pos decimals).le

theorem value_mono_amount (amount_le : amount ≤ greater) (price_nonneg : 0 ≤ price) :
    value amount decimals price ≤ value greater decimals price :=
  Int.tdiv_le_tdiv (unit_pos decimals) (Int.mul_le_mul_of_nonneg_right amount_le price_nonneg)

theorem value_mono_price (amount_nonneg : 0 ≤ amount) (price_le : price ≤ higher) :
    value amount decimals price ≤ value amount decimals higher :=
  Int.tdiv_le_tdiv (unit_pos decimals) (Int.mul_le_mul_of_nonneg_left price_le amount_nonneg)

theorem value_antitone_price (amount_nonpos : amount ≤ 0) (price_le : price ≤ higher) :
    value amount decimals higher ≤ value amount decimals price :=
  Int.tdiv_le_tdiv (unit_pos decimals) (Int.mul_le_mul_of_nonpos_left amount_nonpos price_le)

end Value

/-- The size of an amount as the weight curves look at it. -/
def size (amount : Int) (decimals : Nat) : Int :=
  if (10 : Int) ^ 9 < 10 ^ decimals then
    amount.tdiv (((10 : Int) ^ decimals).tdiv (10 ^ 9))
  else
    (amount * 10 ^ 9).tdiv (10 ^ decimals)

/-- The term of the size in both curves. -/
def sizeRoot (size : Int) : Int :=
  Int.sqrt (size * 10 + 1)

section Size

variable {amount greater : Int} {decimals : Nat}

theorem reserve_unit_pos (large : (10 : Int) ^ 9 < 10 ^ decimals) :
    0 < ((10 : Int) ^ decimals).tdiv (10 ^ 9) := by
  have one_le := Int.tdiv_le_tdiv (by decide : (0 : Int) < 10 ^ 9) large.le
  rw [Int.tdiv_self (by decide)] at one_le
  omega

/-- On both branches the size is the value of the amount at a price of one billion. -/
theorem size_eq_value (amount : Int) (decimals : Nat) :
    size amount decimals = value amount decimals (10 ^ 9) := by
  rw [size, value]
  split
  · rename_i large
    have above : 9 < decimals := (pow_lt_pow_iff_right₀ (by decide : (1 : Int) < 10)).mp large
    obtain ⟨extra, rfl⟩ := Nat.exists_eq_add_of_lt above
    rw [Nat.add_assoc, Int.pow_add, Int.mul_tdiv_cancel_left _ (by decide), Int.mul_comm amount,
      Int.mul_tdiv_mul_of_pos _ _ (unit_pos 9)]
  · rfl

theorem size_redenominated (amount : Int) (decimals places : Nat) :
    size (10 ^ places * amount) (decimals + places) = size amount decimals := by
  rw [size_eq_value, size_eq_value, value_redenominated]

theorem size_mono (amount_le : amount ≤ greater) :
    size amount decimals ≤ size greater decimals := by
  simp only [size]
  split
  · rename_i large
    exact Int.tdiv_le_tdiv (reserve_unit_pos large) amount_le
  · exact Int.tdiv_le_tdiv (unit_pos decimals) (by omega)

theorem size_nonneg (amount_nonneg : 0 ≤ amount) : 0 ≤ size amount decimals := by
  calc
    0 = size 0 decimals := by simp [size]
    _ ≤ size amount decimals := size_mono amount_nonneg

theorem sizeRoot_nonneg (size : Int) : 0 ≤ sizeRoot size :=
  Int.sqrt_nonneg _

theorem sizeRoot_mono {size larger : Int} (size_le : size ≤ larger) :
    sizeRoot size ≤ sizeRoot larger := by
  simp only [sizeRoot, Int.sqrt]
  exact_mod_cast Nat.sqrt_le_sqrt (Int.toNat_le_toNat (by omega))

end Size

/-- The asset weight after the discount for size. -/
def discounted (size imfFactor weight : Int) : Int :=
  if imfFactor = 0 then
    weight
  else
    min weight ((11 * 10 ^ 9 : Int).tdiv (10 ^ 6 + (sizeRoot size * imfFactor).tdiv (10 ^ 5)))

/-- The liability weight after the premium for size. -/
def withPremium (size imfFactor weight : Int) : Int :=
  if imfFactor = 0 then
    weight
  else
    max weight
      (weight - weight.tdiv (max 1 ((10 ^ 6 : Int).tdiv imfFactor)) +
        (sizeRoot size * imfFactor).tdiv (10 ^ 7))

section Curves

variable {size larger imfFactor weight heavier : Int}

theorem growth_nonneg (size : Int) (imfFactor_nonneg : 0 ≤ imfFactor) :
    0 ≤ sizeRoot size * imfFactor :=
  Int.mul_nonneg (sizeRoot_nonneg size) imfFactor_nonneg

theorem growth_mono (size_le : size ≤ larger) (imfFactor_nonneg : 0 ≤ imfFactor) :
    sizeRoot size * imfFactor ≤ sizeRoot larger * imfFactor :=
  Int.mul_le_mul_of_nonneg_right (sizeRoot_mono size_le) imfFactor_nonneg

/-- A quotient falls as its divisor grows. -/
theorem tdiv_antitone_divisor {n d greater : Int} (n_nonneg : 0 ≤ n) (d_pos : 0 < d)
    (d_le : d ≤ greater) : n.tdiv greater ≤ n.tdiv d := by
  have greater_pos : 0 < greater := by omega
  rw [Int.tdiv_eq_ediv_of_nonneg n_nonneg, Int.tdiv_eq_ediv_of_nonneg n_nonneg,
    Int.le_ediv_iff_mul_le d_pos]
  calc
    n / greater * d ≤ n / greater * greater :=
      Int.mul_le_mul_of_nonneg_left d_le (Int.ediv_nonneg n_nonneg greater_pos.le)
    _ ≤ n := Int.ediv_mul_le n greater_pos.ne'

theorem discounted_le : discounted size imfFactor weight ≤ weight := by
  rw [discounted]
  split
  · exact le_refl weight
  · exact min_le_left _ _

theorem discounted_nonneg (imfFactor_nonneg : 0 ≤ imfFactor) (weight_nonneg : 0 ≤ weight) :
    0 ≤ discounted size imfFactor weight := by
  rw [discounted]
  split
  · exact weight_nonneg
  · have growth := Int.tdiv_nonneg (growth_nonneg size imfFactor_nonneg)
      (by decide : (0 : Int) ≤ 10 ^ 5)
    exact le_min weight_nonneg (Int.tdiv_nonneg (by decide) (by omega))

theorem discounted_antitone (size_le : size ≤ larger) (imfFactor_nonneg : 0 ≤ imfFactor) :
    discounted larger imfFactor weight ≤ discounted size imfFactor weight := by
  simp only [discounted]
  split
  · exact le_refl weight
  · have growth_nonneg := Int.tdiv_nonneg (growth_nonneg size imfFactor_nonneg)
      (by decide : (0 : Int) ≤ 10 ^ 5)
    have growth_le := Int.tdiv_le_tdiv (by decide : (0 : Int) < 10 ^ 5)
      (growth_mono size_le imfFactor_nonneg)
    exact min_le_min_left weight
      (tdiv_antitone_divisor (by decide) (by omega) (by omega))

theorem le_withPremium : weight ≤ withPremium size imfFactor weight := by
  rw [withPremium]
  split
  · exact le_refl weight
  · exact le_max_left _ _

theorem withPremium_mono (size_le : size ≤ larger) (imfFactor_nonneg : 0 ≤ imfFactor) :
    withPremium size imfFactor weight ≤ withPremium larger imfFactor weight := by
  simp only [withPremium]
  split
  · exact le_refl weight
  · have growth := Int.tdiv_le_tdiv (by decide : (0 : Int) < 10 ^ 7)
      (growth_mono size_le imfFactor_nonneg)
    exact max_le_max (le_refl weight) (by omega)

theorem discounted_mono_weight (weight_le : weight ≤ heavier) :
    discounted size imfFactor weight ≤ discounted size imfFactor heavier := by
  simp only [discounted]
  split
  · exact weight_le
  · exact min_le_min_right _ weight_le

/-- What remains of a weight less its share grows with the weight. -/
theorem sub_tdiv_mono {divisor : Int} (weight_nonneg : 0 ≤ weight) (weight_le : weight ≤ heavier)
    (divisor_pos : 0 < divisor) :
    weight - weight.tdiv divisor ≤ heavier - heavier.tdiv divisor := by
  rw [Int.tdiv_eq_ediv_of_nonneg weight_nonneg, Int.tdiv_eq_ediv_of_nonneg (by omega)]
  have scaled : heavier - weight ≤ (heavier - weight) * divisor :=
    le_mul_of_one_le_right (by omega) divisor_pos
  have share : heavier / divisor ≤ weight / divisor + (heavier - weight) := by
    rw [← Int.add_mul_ediv_right weight (heavier - weight) divisor_pos.ne']
    exact Int.ediv_le_ediv divisor_pos (by omega)
  omega

theorem withPremium_mono_weight (weight_nonneg : 0 ≤ weight) (weight_le : weight ≤ heavier) :
    withPremium size imfFactor weight ≤ withPremium size imfFactor heavier := by
  simp only [withPremium]
  split
  · exact weight_le
  · have base := sub_tdiv_mono weight_nonneg weight_le
      (by omega : 0 < max 1 ((10 ^ 6 : Int).tdiv imfFactor))
    exact max_le_max weight_le (by omega)

end Curves

/-- The initial asset weight, derated in proportion once the value of all deposits reaches the scale
start. -/
def derated (weight start value : Int) : Int :=
  if start = 0 ∨ value < start then weight else (weight * start).tdiv value

section Derating

variable {weight start higher value greater : Int}

theorem derated_of_below (below : start = 0 ∨ value < start) :
    derated weight start value = weight :=
  if_pos below

theorem derated_of_reached (start_ne : start ≠ 0) (reached : start ≤ value) :
    derated weight start value = (weight * start).tdiv value := by
  apply if_neg
  rintro (zero | below)
  · exact start_ne zero
  · omega

theorem derated_nonneg (weight_nonneg : 0 ≤ weight) (start_nonneg : 0 ≤ start) :
    0 ≤ derated weight start value := by
  rw [derated]
  split
  · exact weight_nonneg
  · exact Int.tdiv_nonneg (Int.mul_nonneg weight_nonneg start_nonneg) (by omega)

/-- Derating sets in where it takes nothing off. -/
theorem derated_of_le (value_le : value ≤ start) : derated weight start value = weight := by
  rw [derated]
  split
  · rfl
  · obtain rfl : value = start := by omega
    exact Int.mul_tdiv_cancel weight (by omega)

theorem derated_le (weight_nonneg : 0 ≤ weight) (start_nonneg : 0 ≤ start) :
    derated weight start value ≤ weight := by
  by_cases below : start = 0 ∨ value < start
  · exact (derated_of_below below).le
  · rw [derated_of_reached (by omega) (by omega)]
    calc
      (weight * start).tdiv value ≤ (weight * start).tdiv start :=
        tdiv_antitone_divisor (Int.mul_nonneg weight_nonneg start_nonneg) (by omega) (by omega)
      _ = weight := Int.mul_tdiv_cancel weight (by omega)

theorem derated_antitone (weight_nonneg : 0 ≤ weight) (start_nonneg : 0 ≤ start)
    (value_le : value ≤ greater) : derated weight start greater ≤ derated weight start value := by
  by_cases below : start = 0 ∨ value < start
  · rw [derated_of_below below]
    exact derated_le weight_nonneg start_nonneg
  · rw [derated_of_reached (by omega) (by omega), derated_of_reached (by omega) (by omega)]
    exact tdiv_antitone_divisor (Int.mul_nonneg weight_nonneg start_nonneg) (by omega) value_le

theorem derated_mono_start (weight_nonneg : 0 ≤ weight) (start_pos : 0 < start)
    (start_le : start ≤ higher) : derated weight start value ≤ derated weight higher value := by
  by_cases below : value < higher
  · rw [derated_of_below (.inr below)]
    exact derated_le weight_nonneg start_pos.le
  · rw [derated_of_reached (by omega) (by omega), derated_of_reached (by omega) (by omega)]
    exact Int.tdiv_le_tdiv (by omega) (Int.mul_le_mul_of_nonneg_left start_le weight_nonneg)

end Derating
end Exact
end SpotMargin
