import SpotMargin.Proofs.Fixed.Root
import SpotMargin.Proofs.Unbounded.Basic

/-!
# Arithmetic never wraps

Whenever an operation on fixed-point integers returns, its result is the evaluation over unbounded
integers: `Fixed.neverWraps` says so for each of them.  `Computes` relates the two, and sequences of
steps are followed through `Computes.bind`.  The steps that the operations leave unchecked are
followed through their checked twins.
-/

namespace SpotMargin

variable {α β γ δ : Type}

/-- Whenever the computation returns, the evaluation has a value, and it is the result as seen
through `view`. -/
def Computes (view : α → β) (x : Except Error α) (evaluation : Option β) : Prop :=
  ∀ result, x = .ok result → evaluation = some (view result)

namespace Computes

variable {view : α → β} {other : γ → δ} {x : Except Error α} {evaluation : Option β}

theorem ok (result : α) : Computes view (.ok result) (some (view result)) := by
  intro _ same
  cases same
  rfl

theorem error (error : Error) : Computes view (.error error) evaluation := by
  intro _ same
  cases same

/-- Sequences of steps are related when their steps are. -/
theorem bind {next : α → Except Error γ} {rest : β → Option δ} (first : Computes view x evaluation)
    (second : ∀ a, Computes other (next a) (rest (view a))) :
    Computes other (x >>= next) (evaluation >>= rest) := by
  intro result returned
  obtain ⟨a, a_eq, result_eq⟩ := bind_eq_ok_iff.mp returned
  rw [first a a_eq]
  exact second a result result_eq

/-- The evaluation of a step that always has a value takes no step of its own. -/
theorem step {value : β} {next : α → Except Error γ} {whole : Option δ}
    (first : Computes view x (some value))
    (second : ∀ a, view a = value → Computes other (next a) whole) :
    Computes other (x >>= next) whole := by
  intro result returned
  obtain ⟨a, a_eq, result_eq⟩ := bind_eq_ok_iff.mp returned
  exact second a (Option.some.inj (first a a_eq)).symm result result_eq

/-- Computations that report events are followed by their results. -/
theorem logged_bind {y : Logged α} {next : α → Logged γ} {rest : β → Option δ}
    (first : Computes view y.result evaluation)
    (second : ∀ a, Computes other (next a).result (rest (view a))) :
    Computes other (y >>= next).result (evaluation >>= rest) := by
  rw [Logged.result_bind]
  exact first.bind second

theorem logged_step {value : β} {y : Logged α} {next : α → Logged γ} {whole : Option δ}
    (first : Computes view y.result (some value))
    (second : ∀ a, view a = value → Computes other (next a).result whole) :
    Computes other (y >>= next).result whole := by
  rw [Logged.result_bind]
  exact first.step second

/-- Choices are related when both sides choose alike. -/
theorem ite {p q : Prop} [Decidable p] [Decidable q] {y : Except Error α} {otherwise : Option β}
    (alike : p ↔ q) (yes : p → Computes view x evaluation)
    (no : ¬p → Computes view y otherwise) :
    Computes view (if p then x else y) (if q then evaluation else otherwise) := by
  by_cases chosen : p
  · rw [if_pos chosen, if_pos (alike.mp chosen)]
    exact yes chosen
  · rw [if_neg chosen, if_neg (chosen ∘ alike.mpr)]
    exact no chosen

end Computes

namespace Fixed

open Unbounded

/-- Whenever the computation returns, its result is the value of the evaluation. -/
abbrev Computes (x : Except Error Fixed) (evaluation : Option Int) : Prop :=
  SpotMargin.Computes toInt x evaluation

variable {x : Except Error Fixed} {exact : Int}

theorem computes_some_iff :
    Fixed.Computes x (some exact) ↔ ∀ result, x = .ok result → result.toInt = exact := by
  simp only [SpotMargin.Computes, Option.some.injEq, eq_comm]

theorem computes_ok {value : Fixed} (same : value.toInt = exact) :
    Fixed.Computes (.ok value) (some exact) := by
  rw [← same]
  exact .ok value

theorem computes_checkedAdd (a b : Fixed) :
    Fixed.Computes (checkedAdd a b) (some (a.toInt + b.toInt)) :=
  computes_some_iff.mpr fun _ => checkedAdd_eq_ok_iff.mp

theorem computes_checkedSub (a b : Fixed) :
    Fixed.Computes (checkedSub a b) (some (a.toInt - b.toInt)) :=
  computes_some_iff.mpr fun _ => checkedSub_eq_ok_iff.mp

theorem computes_checkedMul (a b : Fixed) :
    Fixed.Computes (checkedMul a b) (some (a.toInt * b.toInt)) :=
  computes_some_iff.mpr fun _ => checkedMul_eq_ok_iff.mp

theorem computes_checkedNeg (a : Fixed) : Fixed.Computes (checkedNeg a) (some (-a.toInt)) :=
  computes_some_iff.mpr fun _ => checkedNeg_eq_ok_iff.mp

theorem computes_checkedAbs (a : Fixed) :
    Fixed.Computes (checkedAbs a) (some (a.toInt.natAbs : Int)) :=
  computes_some_iff.mpr fun _ => checkedAbs_eq_ok_iff.mp

theorem computes_checkedDiv (a b : Fixed) :
    Fixed.Computes (checkedDiv a b) (div? a.toInt b.toInt) := by
  intro result returned
  obtain ⟨b_ne, exact⟩ := checkedDiv_eq_ok_iff.mp returned
  rw [div?, if_neg b_ne, exact]

theorem computes_mulDiv (a b c : Fixed) :
    Fixed.Computes (mulDiv a b c) (mulDiv? a.toInt b.toInt c.toInt) := by
  refine (computes_checkedMul a b).step ?_
  intro product product_eq
  rw [mulDiv?, ← product_eq]
  exact computes_checkedDiv product c

theorem computes_divCeil (a b : Fixed) :
    Fixed.Computes (divCeil a b) (divCeil? a.toInt b.toInt) := by
  rw [← checkedDivCeil_eq]
  refine (computes_checkedDiv a b).bind ?_
  intro quotient
  refine (computes_checkedMul quotient b).step ?_
  intro product product_eq
  rw [← product_eq]
  refine .ite Fixed.ext_iff (fun _ => .ok quotient) ?_
  intro _
  exact computes_checkedAdd quotient 1

theorem computes_checkedTenTo (exponent : Nat) :
    Fixed.Computes (checkedTenTo exponent) (some (10 ^ exponent)) := by
  induction exponent with
  | zero => exact computes_ok rfl
  | succ exponent ih =>
      refine ih.step ?_
      intro power power_eq
      rw [Int.pow_succ, ← power_eq]
      exact computes_checkedMul power 10

theorem computes_pow10 (exponent : UInt32) :
    Fixed.Computes (pow10 exponent) (some (10 ^ exponent.toNat)) := by
  rw [← checkedPow10_eq, checkedPow10]
  split
  · exact .error _
  · exact computes_checkedTenTo exponent.toNat

section SquareRoot

variable {radicand current candidate : Fixed} {x y z : Nat}

private theorem computes_checkedDiv_natCast {a b : Fixed} (a_eq : a.toInt = x)
    (b_eq : b.toInt = y) : Fixed.Computes (checkedDiv a b) (some (x / y : Nat)) := by
  rw [computes_some_iff]
  intro result returned
  rw [(checkedDiv_eq_ok_iff.mp returned).2, a_eq, b_eq]
  rfl

private theorem computes_checkedNewtonStep (radicand_eq : radicand.toInt = x)
    (current_eq : current.toInt = y) :
    Fixed.Computes (checkedNewtonStep radicand current) (some ((x / y + y) / 2 : Nat)) := by
  refine (computes_checkedDiv_natCast radicand_eq current_eq).step ?_
  intro quotient quotient_eq
  refine (computes_checkedAdd quotient current).step ?_
  intro sum sum_eq
  apply computes_checkedDiv_natCast _ rfl
  rw [sum_eq, quotient_eq, current_eq, Nat.cast_add]

private theorem computes_checkedNewton (radicand_eq : radicand.toInt = x)
    (current_eq : current.toInt = y) (candidate_eq : candidate.toInt = z) :
    Fixed.Computes (checkedNewton radicand current candidate)
      (some (Unbounded.newton x y z : Nat)) := by
  fun_induction checkedNewton radicand current candidate generalizing y z with
  | case1 current candidate down ih =>
      rw [lt_iff, current_eq, candidate_eq, Int.ofNat_lt] at down
      rw [Unbounded.newton, if_pos down]
      refine (computes_checkedNewtonStep radicand_eq candidate_eq).step ?_
      intro next next_eq
      exact ih next candidate_eq next_eq
  | case2 current candidate stops =>
      rw [lt_iff, current_eq, candidate_eq, Int.ofNat_lt] at stops
      rw [Unbounded.newton, if_neg stops]
      exact computes_ok current_eq

theorem computes_isqrt (radicand : Fixed) :
    Fixed.Computes (isqrt radicand) (isqrt? radicand.toInt) := by
  rw [← checkedIsqrt_eq, checkedIsqrt, isqrt?]
  refine .ite Iff.rfl (fun _ => .error _) ?_
  intro radicand_nonneg
  rw [lt_iff, toInt_zero, not_lt] at radicand_nonneg
  refine .ite Iff.rfl (fun _ => .ok radicand) ?_
  intro _
  have natural := (Int.toNat_of_nonneg radicand_nonneg).symm
  refine (computes_checkedDiv_natCast natural rfl).step ?_
  intro half half_eq
  refine (computes_checkedAdd half 1).step ?_
  intro start start_eq
  apply computes_checkedNewton natural natural
  rw [start_eq, half_eq, toInt_one]
  rfl

end SquareRoot

/-- Whenever an operation returns, its result is the evaluation over unbounded integers.  The steps
that three of the operations leave unchecked would all pass a check. -/
structure NeverWraps : Prop where
  add (a b : Fixed) : Fixed.Computes (checkedAdd a b) (some (a.toInt + b.toInt))
  sub (a b : Fixed) : Fixed.Computes (checkedSub a b) (some (a.toInt - b.toInt))
  mul (a b : Fixed) : Fixed.Computes (checkedMul a b) (some (a.toInt * b.toInt))
  neg (a : Fixed) : Fixed.Computes (checkedNeg a) (some (-a.toInt))
  abs (a : Fixed) : Fixed.Computes (checkedAbs a) (some a.toInt.natAbs)
  div (a b : Fixed) : Fixed.Computes (checkedDiv a b) (div? a.toInt b.toInt)
  divCeil (a b : Fixed) : Fixed.Computes (divCeil a b) (divCeil? a.toInt b.toInt)
  mulDiv (a b c : Fixed) : Fixed.Computes (mulDiv a b c) (mulDiv? a.toInt b.toInt c.toInt)
  pow10 (exponent : UInt32) : Fixed.Computes (pow10 exponent) (some (10 ^ exponent.toNat))
  isqrt (radicand : Fixed) : Fixed.Computes (isqrt radicand) (isqrt? radicand.toInt)
  divCeil_steps (a b : Fixed) : Fixed.divCeil a b = checkedDivCeil a b
  pow10_steps (exponent : UInt32) : Fixed.pow10 exponent = checkedPow10 exponent
  isqrt_steps (radicand : Fixed) : Fixed.isqrt radicand = checkedIsqrt radicand

theorem neverWraps : NeverWraps where
  add := computes_checkedAdd
  sub := computes_checkedSub
  mul := computes_checkedMul
  neg := computes_checkedNeg
  abs := computes_checkedAbs
  div := computes_checkedDiv
  divCeil := computes_divCeil
  mulDiv := computes_mulDiv
  pow10 := computes_pow10
  isqrt := computes_isqrt
  divCeil_steps a b := (checkedDivCeil_eq a b).symm
  pow10_steps exponent := (checkedPow10_eq exponent).symm
  isqrt_steps radicand := (checkedIsqrt_eq radicand).symm

end Fixed
end SpotMargin
