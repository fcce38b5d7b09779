import Mathlib.Data.Int.Sqrt
import Mathlib.Tactic.Linarith
import SpotMargin.Fixed.Sqrt
import SpotMargin.Proofs.Fixed.Results

/-!
# Newton's iteration is exact

Every iterate is at or above the root, so the iteration stops at the root itself.  The only radicand
for which it stops too early is two, where the first candidate is no step down.  The divisions and
additions of the iteration are not checked; `checkedIsqrt_eq` says that none of them leaves the
range or divides by zero.  `isqrt_floor` puts this together for all radicands.
-/

namespace SpotMargin
namespace Fixed

/-- The candidate that follows `current`. -/
def newtonStep (radicand current : Int) : Int :=
  (radicand.tdiv current + current).tdiv 2

/-- The integer can occur in the iteration: it is positive, at or above the root, and not above the
first candidate. -/
structure Iterate (radicand current : Int) : Prop where
  positive : 0 < current
  above_root : radicand < (current + 1) * (current + 1)
  below_start : current ≤ radicand.tdiv 2 + 1

variable {radicand current : Int}

private theorem newtonStep_eq (radicand_nonneg : 0 ≤ radicand) (current_pos : 0 < current) :
    newtonStep radicand current = (radicand / current + current) / 2 := by
  have quotient_nonneg := Int.ediv_nonneg radicand_nonneg current_pos.le
  rw [newtonStep, Int.tdiv_eq_ediv_of_nonneg radicand_nonneg,
    Int.tdiv_eq_ediv_of_nonneg (by omega)]

/-- The mean of `current` and `radicand / current` is not below their geometric mean. -/
theorem lt_newtonStep_add_one_sq (radicand_nonneg : 0 ≤ radicand) (current_pos : 0 < current) :
    radicand < (newtonStep radicand current + 1) * (newtonStep radicand current + 1) := by
  rw [newtonStep_eq radicand_nonneg current_pos]
  have quotient := Int.lt_ediv_add_one_mul_self radicand current_pos
  set part := radicand / current
  set step := (part + current) / 2 with step_eq
  have mean : part + 1 + current ≤ 2 * (step + 1) := by omega
  have part_nonneg : 0 ≤ part := Int.ediv_nonneg radicand_nonneg current_pos.le
  have gap := mul_self_nonneg (part + 1 - current)
  have square := mul_self_le_mul_self (by omega) mean
  linarith

theorem mul_self_le_of_le_newtonStep (radicand_nonneg : 0 ≤ radicand) (current_pos : 0 < current)
    (stops : current ≤ newtonStep radicand current) : current * current ≤ radicand := by
  rw [newtonStep_eq radicand_nonneg current_pos] at stops
  have below : current ≤ radicand / current := by omega
  exact (Int.le_ediv_iff_mul_le current_pos).mp below

namespace Iterate

theorem start (large : 2 ≤ radicand) : Iterate radicand (radicand.tdiv 2 + 1) := by
  rw [Int.tdiv_eq_ediv_of_nonneg (by omega)]
  have half : radicand ≤ 2 * (radicand / 2) + 1 := by omega
  have half_pos : 1 ≤ radicand / 2 := by omega
  exact {
    positive := by omega
    above_root := by nlinarith
    below_start := by rw [Int.tdiv_eq_ediv_of_nonneg (by omega)] }

theorem step (iterate : Iterate radicand current) (large : 3 ≤ radicand)
    (down : newtonStep radicand current < current) :
    Iterate radicand (newtonStep radicand current) := by
  have above := lt_newtonStep_add_one_sq (by omega : 0 ≤ radicand) iterate.positive
  have step_nonneg : 0 ≤ newtonStep radicand current := by
    rw [newtonStep_eq (by omega) iterate.positive]
    have part_nonneg := Int.ediv_nonneg (by omega : 0 ≤ radicand) iterate.positive.le
    have positive := iterate.positive
    omega
  have step_ne : newtonStep radicand current ≠ 0 := by
    intro zero
    rw [zero] at above
    omega
  exact {
    positive := by omega
    above_root := above
    below_start := down.le.trans iterate.below_start }

/-- The sum that is halved next is in range. -/
theorem inRange_sum (iterate : Iterate radicand current) (large : 3 ≤ radicand)
    (range : InRange radicand) : InRange (radicand.tdiv current + current) := by
  have below := iterate.below_start
  have positive := iterate.positive
  have part_nonneg := Int.ediv_nonneg (by omega : 0 ≤ radicand) positive.le
  rw [Int.tdiv_eq_ediv_of_nonneg (by omega)] at below ⊢
  rw [InRange] at range ⊢
  by_cases unit : current = 1
  · -- The root is one, so the radicand is three.
    have above := iterate.above_root
    subst unit
    rw [Int.ediv_one]
    omega
  · have scaled : (radicand / 2 + 1) * 2 ≤ (radicand / 2 + 1) * current :=
      Int.mul_le_mul_of_nonneg_left (by omega) (by omega)
    have part : radicand / current < radicand / 2 + 1 :=
      Int.ediv_lt_of_lt_mul positive (by omega)
    omega

end Iterate

section Newton

variable {x y z : Fixed}

private theorem toInt_two : (2 : Fixed).toInt = 2 :=
  rfl

/-- One step of the iteration stays in range. -/
private theorem toInt_step (iterate : Iterate x.toInt y.toInt) (large : 3 ≤ x.toInt) :
    ((x / y + y) / 2).toInt = newtonStep x.toInt y.toInt := by
  have quotient : (x / y).toInt = x.toInt.tdiv y.toInt := toInt_div_of_pos iterate.positive
  have sum : (x / y + y).toInt = x.toInt.tdiv y.toInt + y.toInt := by
    rw [← quotient]
    apply toInt_add_of_inRange
    rw [quotient]
    exact iterate.inRange_sum large x.inRange
  rw [toInt_div_of_pos (by decide), sum]
  rfl

/-- The iteration from an iterate ends at the root. -/
theorem toInt_newton (large : 3 ≤ x.toInt) (iterate : Iterate x.toInt y.toInt)
    (follows : z.toInt = newtonStep x.toInt y.toInt) :
    (newton x y z).toInt = Int.sqrt x.toInt := by
  fun_induction newton x y z with
  | case1 current candidate down ih =>
      rw [lt_iff, follows] at down
      have next : Iterate x.toInt candidate.toInt := by
        rw [follows]
        exact iterate.step large down
      exact ih next (toInt_step next large)
  | case2 current candidate stops =>
      rw [lt_iff, follows, not_lt] at stops
      have root_le := mul_self_le_of_le_newtonStep (by omega) iterate.positive stops
      have current_nonneg := iterate.positive.le
      have radicand_nonneg : 0 ≤ x.toInt := by omega
      have above := iterate.above_root
      lift x.toInt to Nat using radicand_nonneg with radicand
      lift current.toInt to Nat using current_nonneg with root
      rw [Int.sqrt_natCast]
      norm_cast at root_le above ⊢
      exact Nat.eq_sqrt.mpr ⟨root_le, above⟩

private theorem toInt_start (large : 2 ≤ x.toInt) :
    (x / 2 + 1).toInt = x.toInt.tdiv 2 + 1 := by
  have half : (x / 2).toInt = x.toInt.tdiv 2 := toInt_div_of_pos (by decide)
  have range := x.inRange
  rw [InRange] at range
  rw [toInt_add_of_inRange, half, toInt_one]
  rw [half, toInt_one, Int.tdiv_eq_ediv_of_nonneg (by omega)]
  rw [InRange]
  omega

end Newton

/-- The square root is exact, except that two is taken for its own root. -/
theorem isqrt_eq_ok {x : Fixed} (x_nonneg : 0 ≤ x.toInt) (x_ne : x.toInt ≠ 2) :
    ∃ root, isqrt x = .ok root ∧ root.toInt = Int.sqrt x.toInt := by
  rw [isqrt]
  rw [if_neg (by rw [lt_iff, toInt_zero]; omega)]
  split <;> rename_i small <;> rw [lt_iff, toInt_two] at small
  · refine ⟨x, rfl, ?_⟩
    have cases_x : x.toInt = 0 ∨ x.toInt = 1 := by omega
    rcases cases_x with zero | one
    · rw [zero]
      rfl
    · rw [one]
      rfl
  · refine ⟨_, rfl, ?_⟩
    have first := toInt_start (x := x) (by omega)
    have iterate : Iterate x.toInt (x / 2 + 1).toInt := by
      rw [first]
      exact Iterate.start (by omega)
    have down : x / 2 + 1 < x := by
      rw [lt_iff, first, Int.tdiv_eq_ediv_of_nonneg x_nonneg]
      omega
    rw [newton, if_pos down]
    exact toInt_newton (by omega) iterate (toInt_step iterate (by omega))

/-- The candidate that follows `current`, with every operation checked. -/
def checkedNewtonStep (radicand current : Fixed) : Except Error Fixed := do
  let quotient ← checkedDiv radicand current
  checkedDiv (← checkedAdd quotient current) 2

/-- Newton's iteration, with every operation checked. -/
def checkedNewton (radicand current candidate : Fixed) : Except Error Fixed :=
  if candidate < current then do
    let next ← checkedNewtonStep radicand candidate
    checkedNewton radicand candidate next
  else
    .ok current
termination_by (current.toInt - least.toInt).toNat
decreasing_by
  rename_i below
  have low : least.toInt ≤ candidate.toInt := candidate.inRange.1
  rw [lt_iff] at below
  omega

/-- Square root, rounded down, with every operation checked. -/
def checkedIsqrt (radicand : Fixed) : Except Error Fixed :=
  if radicand < 0 then
    .error (.arithmetic .negativeRadicand)
  else if radicand < 2 then
    .ok radicand
  else do
    let half ← checkedDiv radicand 2
    checkedNewton radicand radicand (← checkedAdd half 1)

private theorem checkedNewtonStep_eq {x y : Fixed} (iterate : Iterate x.toInt y.toInt)
    (large : 3 ≤ x.toInt) : checkedNewtonStep x y = .ok ((x / y + y) / 2) := by
  have positive := iterate.positive
  have quotient : (x / y).toInt = x.toInt.tdiv y.toInt := toInt_div_of_pos positive
  rw [checkedNewtonStep]
  rw [checkedDiv_eq_ok_of_pos positive]
  change (checkedAdd (x / y) y >>= fun sum => checkedDiv sum 2) = _
  rw [checkedAdd_eq_ok_of_inRange]
  · change checkedDiv (x / y + y) 2 = _
    exact checkedDiv_eq_ok_of_pos (by decide)
  · rw [quotient]
    exact iterate.inRange_sum large x.inRange

private theorem checkedNewton_eq {x y z : Fixed} (large : 3 ≤ x.toInt)
    (iterate : Iterate x.toInt y.toInt) (follows : z.toInt = newtonStep x.toInt y.toInt) :
    checkedNewton x y z = .ok (newton x y z) := by
  fun_induction newton x y z with
  | case1 current candidate down ih =>
      have next : Iterate x.toInt candidate.toInt := by
        rw [lt_iff, follows] at down
        rw [follows]
        exact iterate.step large down
      rw [checkedNewton, if_pos down, checkedNewtonStep_eq next large]
      exact ih next (toInt_step next large)
  | case2 current candidate stops =>
      rw [checkedNewton, if_neg stops]

theorem checkedIsqrt_eq (x : Fixed) : checkedIsqrt x = isqrt x := by
  rw [checkedIsqrt, isqrt]
  split
  · rfl
  · split <;> rename_i small
    · rfl
    · rw [lt_iff, toInt_two, not_lt] at small
      have first := toInt_start small
      have half : (x / 2).toInt = x.toInt.tdiv 2 := toInt_div_of_pos (by decide)
      have half_step : checkedDiv x 2 = .ok (x / 2) :=
        checkedDiv_eq_ok_of_pos (by decide)
      have start_step : checkedAdd (x / 2) 1 = .ok (x / 2 + 1) := by
        rw [checkedAdd_eq_ok_iff, first, half, toInt_one]
      rw [half_step]
      change (checkedAdd (x / 2) 1 >>= fun start => checkedNewton x x start) = _
      rw [start_step]
      change checkedNewton x x (x / 2 + 1) = _
      rw [checkedNewton, newton]
      split <;> rename_i down
      · rw [lt_iff, first, Int.tdiv_eq_ediv_of_nonneg (by omega)] at down
        have large : 3 ≤ x.toInt := by omega
        have iterate : Iterate x.toInt (x / 2 + 1).toInt := by
          rw [first]
          exact Iterate.start small
        rw [checkedNewtonStep_eq iterate large]
        exact checkedNewton_eq large iterate (toInt_step iterate large)
      · rfl

theorem isqrt_two : isqrt 2 = .ok 2 := by
  rw [isqrt, if_neg (by decide), if_neg (by decide), newton, if_neg (by decide)]

theorem isqrt_of_neg {x : Fixed} (negative : x.toInt < 0) :
    isqrt x = .error (.arithmetic .negativeRadicand) := by
  rw [isqrt, if_pos]
  rwa [lt_iff, toInt_zero]

/-- The integer is the square root of the radicand, rounded down. -/
def IsFloorRoot (root radicand : Int) : Prop :=
  root * root ≤ radicand ∧ radicand < (root + 1) * (root + 1)

theorem isFloorRoot_sqrt (radicand_nonneg : 0 ≤ radicand) :
    IsFloorRoot (Int.sqrt radicand) radicand := by
  lift radicand to Nat using radicand_nonneg
  rw [Int.sqrt_natCast, IsFloorRoot]
  norm_cast
  exact ⟨Nat.sqrt_le radicand, Nat.lt_succ_sqrt radicand⟩

theorem IsFloorRoot.eq_sqrt {root radicand : Int} (root_nonneg : 0 ≤ root)
    (floor : IsFloorRoot root radicand) : root = Int.sqrt radicand := by
  obtain ⟨square_le, lt_square⟩ := floor
  have radicand_nonneg := (Int.mul_nonneg root_nonneg root_nonneg).trans square_le
  lift root to Nat using root_nonneg
  lift radicand to Nat using radicand_nonneg
  rw [Int.sqrt_natCast]
  norm_cast at square_le lt_square ⊢
  exact Nat.eq_sqrt.mpr ⟨square_le, lt_square⟩

/-- A radicand that is not negative has a result, which no step reaches by leaving the range or
dividing by zero, and it is the root rounded down for every radicand but two.  A negative radicand
is refused. -/
theorem isqrt_floor (x : Fixed) :
    (0 ≤ x.toInt → ∃ root : Fixed, isqrt x = .ok root ∧ checkedIsqrt x = .ok root ∧
      0 ≤ root.toInt ∧ (IsFloorRoot root.toInt x.toInt ↔ x.toInt ≠ 2)) ∧
    (x.toInt < 0 → ∃ fault, isqrt x = .error fault ∧ fault.kind = .argument) := by
  rw [checkedIsqrt_eq]
  constructor
  · intro x_nonneg
    by_cases two : x.toInt = 2
    · obtain rfl : x = 2 := Fixed.ext two
      refine ⟨2, isqrt_two, isqrt_two, x_nonneg, iff_of_false ?_ (by simp [two])⟩
      rintro ⟨square_le, -⟩
      exact absurd square_le (by decide)
    · obtain ⟨root, root_eq, root_toInt⟩ := isqrt_eq_ok x_nonneg two
      refine ⟨root, root_eq, root_eq, ?_, iff_of_true ?_ two⟩
      · rw [root_toInt]
        exact Int.sqrt_nonneg _
      · rw [root_toInt]
        exact isFloorRoot_sqrt x_nonneg
  · intro negative
    exact ⟨_, isqrt_of_neg negative, rfl⟩

/-- The root of the greatest integer, which begins at half of it. -/
theorem isqrt_floor_of_greatest :
    ∃ root : Fixed, isqrt greatest = .ok root ∧ checkedIsqrt greatest = .ok root ∧
      root.toInt = 13043817825332782212 := by
  obtain ⟨root, root_eq, checked_eq, root_nonneg, floor_iff⟩ :=
    (isqrt_floor greatest).1 (by decide)
  obtain ⟨square_le, lt_square⟩ := floor_iff.mpr (by decide)
  refine ⟨root, root_eq, checked_eq, ?_⟩
  change root.toInt * root.toInt ≤ 0x7fff_ffff_ffff_ffff_ffff_ffff_ffff_ffff at square_le
  change 0x7fff_ffff_ffff_ffff_ffff_ffff_ffff_ffff < (root.toInt + 1) * (root.toInt + 1)
    at lt_square
  nlinarith

/-- Two is taken for its own root, so the root is not rounded down for every radicand. -/
theorem not_isFloorRoot_isqrt :
    ¬∀ x : Fixed, 0 ≤ x.toInt → ∃ root : Fixed, isqrt x = .ok root ∧ 0 ≤ root.toInt ∧
      IsFloorRoot root.toInt x.toInt := by
  intro floor
  obtain ⟨root, root_eq, -, square_le, -⟩ := floor 2 (by decide)
  cases isqrt_two.symm.trans root_eq
  exact absurd square_le (by decide)

end Fixed
end SpotMargin
