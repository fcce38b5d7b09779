import SpotMargin.Fixed.Basic

/-!
# Strict prices

A strict price is a current price with an optional time-weighted average beside it.  Its bounds are
the lesser and the greater of the two: holdings are valued at the lower bound, debts at the upper.
-/

namespace SpotMargin

/-- A price with the time-weighted average that it is held against, when there is one. -/
structure StrictPrice where
  current : Fixed := 0
  twap : Option Fixed := none
  deriving DecidableEq, Inhabited

namespace StrictPrice

def upper (price : StrictPrice) : Fixed :=
  match price.twap with
  | some twap => max price.current twap
  | none => price.current

def lower (price : StrictPrice) : Fixed :=
  match price.twap with
  | some twap => min price.current twap
  | none => price.current

theorem lower_le_current (price : StrictPrice) : price.lower ≤ price.current := by
  unfold lower
  split
  · rw [Fixed.le_iff, Fixed.toInt_min]
    omega
  · exact Int.le_refl _

theorem current_le_upper (price : StrictPrice) : price.current ≤ price.upper := by
  unfold upper
  split
  · rw [Fixed.le_iff, Fixed.toInt_max]
    omega
  · exact Int.le_refl _

end StrictPrice
end SpotMargin
