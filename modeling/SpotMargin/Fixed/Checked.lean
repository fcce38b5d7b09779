import SpotMargin.Error

/-!
# Checked arithmetic

Operations that answer the exact integer result, or fail with the operation and the exact result
that is out of range.  The main statements say so: `checkedAdd_eq_ok_iff` and its siblings.
-/

namespace SpotMargin
namespace Fixed

/-- The exact result of an operation, when it is in range. -/
def checked (operation : Operation) (exact : Int) : Except Error Fixed :=
  match ofInt? exact with
  | some result => .ok result
  | none => .error (.arithmetic (.overflow operation exact))

def checkedAdd (a b : Fixed) : Except Error Fixed :=
  checked .add (a.toInt + b.toInt)

def checkedSub (a b : Fixed) : Except Error Fixed :=
  checked .sub (a.toInt - b.toInt)

def checkedMul (a b : Fixed) : Except Error Fixed :=
  checked .mul (a.toInt * b.toInt)

def checkedNeg (a : Fixed) : Except Error Fixed :=
  checked .neg (-a.toInt)

def checkedAbs (a : Fixed) : Except Error Fixed :=
  if a < 0 then a.checkedNeg else .ok a

def checkedDiv (a b : Fixed) : Except Error Fixed :=
  if b = 0 then .error (.arithmetic .divisionByZero) else checked .div (a.toInt.tdiv b.toInt)

/-- Quotient, truncated toward zero and then raised by one when there is a remainder.  For operands
that are not negative this is the quotient rounded up. -/
def divCeil (a b : Fixed) : Except Error Fixed := do
  let quotient ← checkedDiv a b
  return if quotient * b = a then quotient else quotient + 1

/-- `a * b / c`, truncated toward zero; the product has to be in range too. -/
def mulDiv (a b c : Fixed) : Except Error Fixed := do
  checkedDiv (← checkedMul a b) c

/-- The power of ten, by repeated multiplication. -/
def tenTo : Nat → Fixed
  | 0 => 1
  | exponent + 1 => tenTo exponent * 10

/-- The power of ten, when it is in range. -/
def pow10 (exponent : UInt32) : Except Error Fixed :=
  if 38 < exponent then
    .error (.arithmetic (.powerOfTen exponent))
  else
    .ok (tenTo exponent.toNat)

theorem checked_eq_ok_iff {operation : Operation} {exact : Int} {result : Fixed} :
    checked operation exact = .ok result ↔ result.toInt = exact := by
  rw [← ofInt?_eq_some_iff, checked]
  cases ofInt? exact <;> simp

theorem checked_eq_error_iff {operation : Operation} {exact : Int} {error : Error} :
    checked operation exact = .error error ↔
      ¬InRange exact ∧ error = .arithmetic (.overflow operation exact) := by
  rw [← ofInt?_eq_none_iff, checked]
  cases ofInt? exact <;> simp [eq_comm]

theorem checkedAdd_eq_ok_iff {a b result : Fixed} :
    checkedAdd a b = .ok result ↔ result.toInt = a.toInt + b.toInt :=
  checked_eq_ok_iff

theorem checkedSub_eq_ok_iff {a b result : Fixed} :
    checkedSub a b = .ok result ↔ result.toInt = a.toInt - b.toInt :=
  checked_eq_ok_iff

theorem checkedMul_eq_ok_iff {a b result : Fixed} :
    checkedMul a b = .ok result ↔ result.toInt = a.toInt * b.toInt :=
  checked_eq_ok_iff

theorem checkedNeg_eq_ok_iff {a result : Fixed} :
    checkedNeg a = .ok result ↔ result.toInt = -a.toInt :=
  checked_eq_ok_iff

theorem checkedAbs_eq_ok_iff {a result : Fixed} :
    checkedAbs a = .ok result ↔ result.toInt = a.toInt.natAbs := by
  unfold checkedAbs
  split <;> rename_i sign <;> simp only [lt_iff, toInt_zero] at sign
  · rw [checkedNeg_eq_ok_iff]
    omega
  · rw [Except.ok.injEq, Fixed.ext_iff]
    omega

theorem checkedDiv_eq_ok_iff {a b result : Fixed} :
    checkedDiv a b = .ok result ↔ b.toInt ≠ 0 ∧ result.toInt = a.toInt.tdiv b.toInt := by
  have zero : b = 0 ↔ b.toInt = 0 := Fixed.ext_iff
  unfold checkedDiv
  split <;> simp_all [checked_eq_ok_iff]

theorem mulDiv_eq_ok_iff {a b c result : Fixed} :
    mulDiv a b c = .ok result ↔
      InRange (a.toInt * b.toInt) ∧ c.toInt ≠ 0 ∧
        result.toInt = (a.toInt * b.toInt).tdiv c.toInt := by
  unfold mulDiv
  cases product : checkedMul a b with
  | ok exact =>
      have same := checkedMul_eq_ok_iff.mp product
      simp only [bind, Except.bind, checkedDiv_eq_ok_iff, same]
      simp [← same, exact.inRange]
  | error error =>
      have out := (checked_eq_error_iff.mp product).1
      simp [bind, Except.bind, out]

end Fixed
end SpotMargin
