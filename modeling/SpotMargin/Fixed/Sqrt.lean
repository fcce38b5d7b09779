import SpotMargin.Error

/-!
# Integer square roots

Newton's iteration on integers.  It runs downward from the radicand, and it stops at the first
candidate that is not below the one before.
-/

namespace SpotMargin
namespace Fixed

/-- Newton's iteration: the candidate follows `current` while it is below it.  The last candidate
that was below its predecessor is the answer. -/
def newton (radicand current candidate : Fixed) : Fixed :=
  if candidate < current then
    newton radicand candidate ((radicand / candidate + candidate) / 2)
  else
    current
termination_by (current.toInt - least.toInt).toNat
decreasing_by
  rename_i below
  have low : least.toInt ≤ candidate.toInt := candidate.inRange.1
  rw [lt_iff] at below
  omega

/-- Square root, rounded down.  Radicands of zero and one are their own roots; the iteration for
the others tries half of the radicand plus one first.  For a radicand of two this is no step down,
so two is its own root too. -/
def isqrt (radicand : Fixed) : Except Error Fixed :=
  if radicand < 0 then
    .error (.arithmetic .negativeRadicand)
  else if radicand < 2 then
    .ok radicand
  else
    .ok (newton radicand radicand (radicand / 2 + 1))

end Fixed
end SpotMargin
