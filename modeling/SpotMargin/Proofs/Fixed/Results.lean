import Mathlib.Tactic.NormNum
import SpotMargin.Fixed.Checked
import SpotMargin.Proofs.Outcome

/-!
# Outcomes of checked arithmetic

A checked sum, difference, product or negation is exact, or its exact result is out of range.
Quotients by a positive divisor and powers of ten up to `10 ^ 38` never fail.  The powers of ten and
the quotient rounded up have steps of their own that are not checked; `checkedPow10_eq` and
`checkedDivCeil_eq` say that checking these steps too makes no difference.
-/

namespace SpotMargin

/-- The failure is a sum, a difference, a product or a negation whose exact result is out of
range. -/
def Error.LeavesRange : Error → Prop
  | .arithmetic (.overflow operation exact) => operation ≠ .div ∧ ¬Fixed.InRange exact
  | _ => False

theorem Error.LeavesRange.kind_eq {error : Error} (leaves : error.LeavesRange) :
    error.kind = .overflow := by
  simp only [LeavesRange] at leaves
  split at leaves
  · rfl
  · exact leaves.elim

namespace Fixed

variable {a b c result : Fixed}

theorem inRange_tdiv {n d : Int} (range : InRange n) (d_ne : d ≠ 0)
    (proper : d = -1 → -2 ^ 127 < n) : InRange (n.tdiv d) := by
  have size := Int.natAbs_tdiv_le_natAbs n d
  rw [InRange] at range ⊢
  by_cases positive : 0 < d
  · rcases Int.le_total 0 n with n_nonneg | n_nonpos
    · have quotient_nonneg := Int.tdiv_nonneg n_nonneg positive.le
      omega
    · have quotient_nonneg := Int.tdiv_nonneg (Int.neg_nonneg_of_nonpos n_nonpos) positive.le
      rw [Int.neg_tdiv] at quotient_nonneg
      omega
  · by_cases unit : d = -1
    · subst unit
      have lower := proper rfl
      rw [Int.tdiv_neg, Int.tdiv_one]
      omega
    · have half : (n.tdiv d).natAbs ≤ n.natAbs / 2 := by
        rw [Int.natAbs_tdiv]
        exact Nat.div_le_div_left (by omega) (by decide)
      omega

theorem inRange_tdiv_of_pos {n d : Int} (range : InRange n) (d_pos : 0 < d) :
    InRange (n.tdiv d) :=
  inRange_tdiv range (by omega) (by omega)

theorem ensures_checked {operation : Operation} (exact : Int) (proper : operation ≠ .div) :
    Ensures Error.LeavesRange (·.toInt = exact) (checked operation exact) := by
  cases outcome : checked operation exact with
  | ok result => exact checked_eq_ok_iff.mp outcome
  | error error =>
      obtain ⟨out, rfl⟩ := checked_eq_error_iff.mp outcome
      exact ⟨proper, out⟩

theorem ensures_checkedAdd (a b : Fixed) :
    Ensures Error.LeavesRange (·.toInt = a.toInt + b.toInt) (checkedAdd a b) :=
  ensures_checked _ (by decide)

theorem ensures_checkedSub (a b : Fixed) :
    Ensures Error.LeavesRange (·.toInt = a.toInt - b.toInt) (checkedSub a b) :=
  ensures_checked _ (by decide)

theorem ensures_checkedMul (a b : Fixed) :
    Ensures Error.LeavesRange (·.toInt = a.toInt * b.toInt) (checkedMul a b) :=
  ensures_checked _ (by decide)

theorem ensures_checkedNeg (a : Fixed) :
    Ensures Error.LeavesRange (·.toInt = -a.toInt) (checkedNeg a) :=
  ensures_checked _ (by decide)

theorem ensures_checkedAbs (a : Fixed) :
    Ensures Error.LeavesRange (fun result : Fixed => result.toInt = a.toInt.natAbs)
      (checkedAbs a) := by
  rw [checkedAbs]
  split <;> rename_i sign <;> rw [lt_iff, toInt_zero] at sign
  · refine (ensures_checkedNeg a).mono ?_
    intro result negated
    omega
  · rw [Ensures.ok_iff]
    omega

/-- A quotient exists unless the divisor is zero, or the least integer is divided by minus one. -/
theorem exists_checkedDiv_eq_ok (b_ne : b.toInt ≠ 0)
    (proper : b.toInt = -1 → -2 ^ 127 < a.toInt) :
    ∃ result, checkedDiv a b = .ok result ∧ result.toInt = a.toInt.tdiv b.toInt := by
  have range := inRange_tdiv a.inRange b_ne proper
  exact ⟨⟨_, range⟩, checkedDiv_eq_ok_iff.mpr ⟨b_ne, rfl⟩, rfl⟩

theorem ensures_checkedDiv (a : Fixed) {b : Fixed} (b_pos : 0 < b.toInt) :
    Ensures Error.LeavesRange (·.toInt = a.toInt.tdiv b.toInt) (checkedDiv a b) := by
  obtain ⟨result, returned, exact⟩ :=
    exists_checkedDiv_eq_ok (a := a) (b := b) (by omega) (by omega)
  rw [returned]
  exact exact

theorem ensures_mulDiv (a b : Fixed) {c : Fixed} (c_pos : 0 < c.toInt) :
    Ensures Error.LeavesRange (·.toInt = (a.toInt * b.toInt).tdiv c.toInt) (mulDiv a b c) := by
  refine (ensures_checkedMul a b).bind ?_
  intro product exact
  rw [← exact]
  exact ensures_checkedDiv product c_pos

theorem checkedAdd_eq_ok_of_inRange (range : InRange (a.toInt + b.toInt)) :
    checkedAdd a b = .ok (a + b) :=
  checkedAdd_eq_ok_iff.mpr (toInt_add_of_inRange range)

theorem checkedSub_eq_ok_of_inRange (range : InRange (a.toInt - b.toInt)) :
    checkedSub a b = .ok (a - b) :=
  checkedSub_eq_ok_iff.mpr (toInt_sub_of_inRange range)

theorem checkedMul_eq_ok_of_inRange (range : InRange (a.toInt * b.toInt)) :
    checkedMul a b = .ok (a * b) :=
  checkedMul_eq_ok_iff.mpr (toInt_mul_of_inRange range)

theorem checkedDiv_eq_ok_of_ne (b_ne : b.toInt ≠ 0)
    (proper : b.toInt = -1 → -2 ^ 127 < a.toInt) : checkedDiv a b = .ok (a / b) :=
  checkedDiv_eq_ok_iff.mpr ⟨b_ne, toInt_div_of_inRange (inRange_tdiv a.inRange b_ne proper)⟩

theorem checkedDiv_eq_ok_of_pos (b_pos : 0 < b.toInt) : checkedDiv a b = .ok (a / b) :=
  checkedDiv_eq_ok_of_ne (by omega) (by omega)

theorem toInt_div_of_pos (b_pos : 0 < b.toInt) : (a / b).toInt = a.toInt.tdiv b.toInt :=
  toInt_div_of_inRange (inRange_tdiv_of_pos a.inRange b_pos)

/-- The quotient rounded up, with its multiplication back and its increment checked. -/
def checkedDivCeil (a b : Fixed) : Except Error Fixed := do
  let quotient ← checkedDiv a b
  let product ← checkedMul quotient b
  if product = a then return quotient else checkedAdd quotient 1

private theorem inRange_tdiv_mul {n d : Int} (range : InRange n) : InRange (n.tdiv d * d) := by
  have split := Int.tdiv_mul_add_tmod n d
  have size : (n.tmod d).natAbs ≤ n.natAbs := by
    rw [Int.natAbs_tmod]
    exact Nat.mod_le _ _
  rw [InRange] at range ⊢
  rcases Int.le_total 0 n with n_nonneg | n_nonpos
  · have remainder_nonneg := Int.tmod_nonneg d n_nonneg
    omega
  · have remainder_nonneg := Int.tmod_nonneg d (Int.neg_nonneg_of_nonpos n_nonpos)
    rw [Int.neg_tmod] at remainder_nonneg
    omega

/-- A division that leaves a remainder has a quotient well inside the range. -/
private theorem inRange_tdiv_add_one {n d : Int} (range : InRange n)
    (remainder : n.tdiv d * d ≠ n) : InRange (n.tdiv d + 1) := by
  have d_ne_one : d ≠ 1 := by
    rintro rfl
    simp at remainder
  have d_ne_neg : d ≠ -1 := by
    rintro rfl
    simp at remainder
  by_cases zero : d = 0
  · rw [zero, Int.tdiv_zero]
    decide
  · have half : (n.tdiv d).natAbs ≤ n.natAbs / 2 := by
      rw [Int.natAbs_tdiv]
      exact Nat.div_le_div_left (by omega) (by decide)
    rw [InRange] at range ⊢
    omega

theorem checkedDivCeil_eq (a b : Fixed) : checkedDivCeil a b = divCeil a b := by
  rw [checkedDivCeil, divCeil]
  cases outcome : checkedDiv a b with
  | error error => rfl
  | ok quotient =>
      obtain ⟨-, exact⟩ := checkedDiv_eq_ok_iff.mp outcome
      have range : InRange (quotient.toInt * b.toInt) := by
        rw [exact]
        exact inRange_tdiv_mul a.inRange
      change (checkedMul quotient b >>= fun product =>
          if product = a then pure quotient else checkedAdd quotient 1) = _
      rw [checkedMul_eq_ok_of_inRange range]
      change (if quotient * b = a then pure quotient else checkedAdd quotient 1) =
        pure (if quotient * b = a then quotient else quotient + 1)
      split
      · rfl
      · rename_i uneven
        apply checkedAdd_eq_ok_of_inRange
        rw [toInt_one, exact]
        apply inRange_tdiv_add_one a.inRange
        intro even
        apply uneven
        apply Fixed.ext
        rw [toInt_mul_of_inRange range, exact, even]

/-- The power of ten, with every multiplication checked. -/
def checkedTenTo : Nat → Except Error Fixed
  | 0 => .ok 1
  | exponent + 1 => do checkedMul (← checkedTenTo exponent) 10

/-- The power of ten, when it is in range, with every multiplication checked. -/
def checkedPow10 (exponent : UInt32) : Except Error Fixed :=
  if 38 < exponent then
    .error (.arithmetic (.powerOfTen exponent))
  else
    checkedTenTo exponent.toNat

theorem inRange_ten_pow {exponent : Nat} (small : exponent ≤ 38) :
    InRange (10 ^ exponent) := by
  have bound : (10 : Int) ^ exponent ≤ 10 ^ 38 := by
    exact_mod_cast Nat.pow_le_pow_right (by decide) small
  have positive : (0 : Int) < 10 ^ exponent := Int.pow_pos (by decide)
  rw [InRange]
  omega

theorem toInt_tenTo {exponent : Nat} (small : exponent ≤ 38) :
    (tenTo exponent).toInt = 10 ^ exponent := by
  induction exponent with
  | zero => rfl
  | succ exponent ih =>
      have previous := ih (by omega)
      have range := inRange_ten_pow small
      rw [Int.pow_succ, ← previous] at range
      rw [tenTo, toInt_mul_of_inRange range, previous, Int.pow_succ]
      rfl

theorem checkedTenTo_eq {exponent : Nat} (small : exponent ≤ 38) :
    checkedTenTo exponent = .ok (tenTo exponent) := by
  induction exponent with
  | zero => rfl
  | succ exponent ih =>
      have range := inRange_ten_pow small
      rw [Int.pow_succ, ← toInt_tenTo (by omega)] at range
      rw [checkedTenTo, ih (by omega)]
      exact checkedMul_eq_ok_of_inRange range

theorem checkedPow10_eq (exponent : UInt32) : checkedPow10 exponent = pow10 exponent := by
  rw [checkedPow10, pow10]
  split
  · rfl
  · rename_i small
    exact checkedTenTo_eq (UInt32.le_iff_toNat_le.mp (UInt32.not_lt.mp small))

theorem ensures_pow10 {exponent : UInt32} (small : exponent ≤ 38) :
    Ensures Error.LeavesRange (·.toInt = 10 ^ exponent.toNat) (pow10 exponent) := by
  rw [pow10, if_neg (UInt32.not_lt.mpr small), Ensures.ok_iff]
  exact toInt_tenTo (UInt32.le_iff_toNat_le.mp small)

end Fixed
end SpotMargin
