import SpotMargin.Proofs.Scenario.Failures

/-!
# What a valuation reports

A failure of a worst case is one that it throws itself, or one of a conversion or a weight curve
that it passes on.  The two are told apart by changing the errors of the math (`mapError`): a
failure that is thrown stays what it is, and one that is passed on changes with them.

No step of a valuation reports an event and goes on.  A weight out of bounds is reported as it is
thrown, every other failure ends the valuation without an event (`Logged.Discreet`), and only a
worst case that selects a side reports something and returns.  `worstCase_reports` puts these ends
together, for any conversions and any weight curves.
-/

namespace SpotMargin

open Fixed

namespace Logged

variable {α β : Type} {index : UInt16}

/-- A computation on a math whose errors have been changed by the argument: whatever the change, it
reports nothing, or nothing but the weight that it rejects in the market with the given number. -/
inductive Discreet (index : UInt16) : ((Error → Error) → Logged α) → Prop
  | returned (result : α) : Discreet index fun _ => ⟨.ok result, []⟩
  | thrown {error : Error} : ¬error.IsWeight → Discreet index fun _ => ⟨.error error, []⟩
  | passed (error : Error) : Discreet index fun change => ⟨.error (change error), []⟩
  | rejected (cause : WeightError) :
      Discreet index fun _ => ⟨.error (.weight cause), [.weightRejected index cause]⟩

namespace Discreet

theorem bind {x : (Error → Error) → Logged α} {next : (Error → Error) → α → Logged β}
    (first : Discreet index x) (rest : ∀ a, Discreet index fun change => next change a) :
    Discreet index fun change => x change >>= next change := by
  cases first with
  | returned result => exact rest result
  | thrown other => exact .thrown other
  | passed error => exact .passed error
  | rejected cause => exact .rejected cause

end Discreet
end Logged

namespace Fixed

end Fixed

namespace MarketMath

/-- The same conversions and weight curves, which fail with other errors. -/
def mapError (change : Error → Error) (math : MarketMath) : MarketMath where
  tokenAmount balance market type := (math.tokenAmount balance market type).mapError change
  signedTokenAmount amount type := (math.signedTokenAmount amount type).mapError change
  tokenValue amount decimals price := (math.tokenValue amount decimals price).mapError change
  strictTokenValue amount decimals price :=
    (math.strictTokenValue amount decimals price).mapError change
  assetWeight amount price market category :=
    (math.assetWeight amount price market category).mapError change
  liabilityWeight amount market category :=
    (math.liabilityWeight amount market category).mapError change

variable {math : MarketMath} {position : Position} {market : Market} {price : StrictPrice}
  {category : MarginCategory}

/-- The valuations of the position with all its bids filled and with all its asks filled. -/
def FillsBoth (math : MarketMath) (position : Position) (market : Market) (price : StrictPrice)
    (category : MarginCategory) (bids asks : Scenario) : Prop :=
  ∃ amount value, math.appraise position market price = .ok (amount, value) ∧
    (math.valueFilled amount value .bid position.openBids price market category).result = .ok bids ∧
    (math.valueFilled amount value .ask position.openAsks price market category).result = .ok asks

/-- The ends of a worst case on a math whose errors are changed. -/
inductive Reports (math : MarketMath) (position : Position) (market : Market)
    (price : StrictPrice) (category : MarginCategory) : ((Error → Error) → Logged Scenario) → Prop
  | discreet {valued : (Error → Error) → Logged Scenario} :
      Logged.Discreet market.index valued →
      (∀ scenario, (valued id).result = .ok scenario → ¬position.HasOpenSize) →
      Reports math position market price category valued
  | selected {bids asks : Scenario} : position.HasOpenSize →
      math.FillsBoth position market price category bids asks →
      Reports math position market price category fun _ =>
        ⟨.ok (Scenario.select bids asks (Scenario.worseSide bids asks)),
          [.sideSelected market.index category bids.freeCollateral asks.freeCollateral
            (Scenario.worseSide bids asks)]⟩

/-- A step that fails is the end of the worst case. -/
theorem Reports.bind {α : Type} {x : (Error → Error) → Logged α}
    {next : (Error → Error) → α → Logged Scenario} (first : Logged.Discreet market.index x)
    (rest : ∀ a, (x id).result = .ok a →
      Reports math position market price category fun change => next change a) :
    Reports math position market price category fun change => x change >>= next change := by
  cases first with
  | returned result => exact rest result rfl
  | thrown other => exact .discreet (.thrown other) fun _ returned => by cases returned
  | passed error => exact .discreet (.passed error) fun _ returned => by cases returned
  | rejected cause => exact .discreet (.rejected cause) fun _ returned => by cases returned

end MarketMath

namespace Weight

end Weight

end SpotMargin
