import SpotMargin.Json.Codec
import SpotMargin.Proofs.Checked
import SpotMargin.Proofs.Scenario.Steps

/-!
# How a valuation can fail

In a valid market a worst case fails for a negative magnitude of the position, or because an exact
sum, difference, product or negation is out of range; in no other way.  `MarketMath.Safe` says what
the conversions and weight curves have to guarantee for that, and a market read from JSON is valid.
-/

namespace SpotMargin

open Fixed

theorem Position.exists_check_eq_error {position : Position} (negative : ¬position.NonNegative) :
    ∃ cause, position.check = .error (.argument cause) := by
  rw [← check_eq_ok_iff] at negative
  rw [check] at negative ⊢
  split
  · exact ⟨_, rfl⟩
  · split
    · exact ⟨_, rfl⟩
    · split
      · exact ⟨_, rfl⟩
      · simp_all

namespace OrderSide

theorem ensures_fillAmount (side : OrderSide) (amount size : Fixed) :
    Ensures Error.LeavesRange (fun _ => True) (side.fillAmount amount size) := by
  cases side with
  | bid => exact (ensures_checkedAdd amount size).mono fun _ _ => trivial
  | ask => exact (ensures_checkedSub amount size).mono fun _ _ => trivial

theorem ensures_fillValue (side : OrderSide) (value ordersValue : Fixed) :
    Ensures Error.LeavesRange (fun _ => True) (side.fillValue value ordersValue) := by
  cases side with
  | bid => exact (ensures_checkedSub value ordersValue).mono fun _ _ => trivial
  | ask => exact (ensures_checkedAdd value ordersValue).mono fun _ _ => trivial

end OrderSide

namespace MarketMath

/-- In the market, conversions and weight curves fail only by leaving the range, and weights are
within their bounds. -/
structure Safe (math : MarketMath) (market : Market) : Prop where
  tokenAmount (balance : Fixed) (type : BalanceType) :
    Ensures Error.LeavesRange (fun _ => True) (math.tokenAmount balance market type)
  signedTokenAmount (amount : Fixed) (type : BalanceType) :
    Ensures Error.LeavesRange (fun _ => True) (math.signedTokenAmount amount type)
  tokenValue (amount price : Fixed) :
    Ensures Error.LeavesRange (fun _ => True) (math.tokenValue amount market.decimals price)
  strictTokenValue (amount : Fixed) (price : StrictPrice) :
    Ensures Error.LeavesRange (fun _ => True) (math.strictTokenValue amount market.decimals price)
  assetWeight (amount price : Fixed) (category : MarginCategory) :
    Ensures Error.LeavesRange (fun weight => 0 ≤ weight.toInt ∧ weight.toInt ≤ 10000)
      (math.assetWeight amount price market category)
  liabilityWeight {amount : Fixed} (amount_nonneg : 0 ≤ amount.toInt) (category : MarginCategory) :
    Ensures Error.LeavesRange (fun weight => 10000 ≤ weight.toInt)
      (math.liabilityWeight amount market category)

theorem safe_standard {market : Market} (valid : market.Valid) : standard.Safe market where
  tokenAmount balance type := Market.ensures_tokenAmount valid balance type
  signedTokenAmount amount type := type.ensures_signedAmount amount
  tokenValue amount price :=
    (ensures_tokenValue amount price valid.decimals_le_max).mono fun _ _ => trivial
  strictTokenValue amount price :=
    (ensures_strictTokenValue amount price valid.decimals_le_max).mono fun _ _ => trivial
  assetWeight amount price category := Weight.ensures_asset valid amount price category
  liabilityWeight amount_nonneg category := by
    refine (Weight.ensures_liability valid amount_nonneg category).mono ?_
    intro weight exact
    rw [exact]
    exact (valid.one_le_liabilityWeight category).trans Exact.le_withPremium

variable {math : MarketMath} {market : Market}

namespace Safe

theorem ensures_boundedAssetWeight (safe : math.Safe market) (amount price : Fixed)
    (category : MarginCategory) :
    Ensures Error.LeavesRange (fun _ => True)
      (math.boundedAssetWeight amount price market category).result := by
  refine Ensures.logged_bind (safe.assetWeight amount price category) ?_
  intro weight bounds
  have accepted : ¬(weight < 0 ∨ Precision.weight < weight) := by
    rw [lt_iff, lt_iff, toInt_zero, Precision.toInt_weight]
    omega
  rw [if_neg accepted]
  trivial

theorem ensures_boundedLiabilityWeight (safe : math.Safe market) {amount : Fixed}
    (amount_nonneg : 0 ≤ amount.toInt) (category : MarginCategory) :
    Ensures Error.LeavesRange (fun _ => True)
      (math.boundedLiabilityWeight amount market category).result := by
  refine Ensures.logged_bind (safe.liabilityWeight amount_nonneg category) ?_
  intro weight bound
  have accepted : ¬weight < Precision.weight := by
    rw [lt_iff, Precision.toInt_weight]
    omega
  rw [if_neg accepted]
  trivial

theorem ensures_weigh (safe : math.Safe market) (amount value price : Fixed)
    (category : MarginCategory) :
    Ensures Error.LeavesRange (fun _ => True)
      (math.weigh amount value price market category).result := by
  have finish (weight : Fixed) : Ensures Error.LeavesRange (fun _ => True)
      (do return { weight, value := ← mulDiv value weight Precision.weight } :
        Logged WeightedValue).result :=
    Ensures.logged_bind (ensures_mulDiv value weight (by decide)) fun _ _ => trivial
  rw [weigh]
  by_cases sign : 0 ≤ value
  · simp only [sign, if_true]
    exact Ensures.logged_bind (safe.ensures_boundedAssetWeight amount price category)
      fun weight _ => finish weight
  · simp only [sign, if_false]
    refine Ensures.logged_bind (ensures_checkedAbs amount) ?_
    intro magnitude magnitude_eq
    exact Ensures.logged_bind
      (safe.ensures_boundedLiabilityWeight (by omega) category) fun weight _ => finish weight

theorem ensures_valueUnfilled (safe : math.Safe market) (amount value : Fixed)
    (price : StrictPrice) (category : MarginCategory) :
    Ensures Error.LeavesRange (fun _ => True)
      (math.valueUnfilled amount value price market category).result :=
  Ensures.logged_bind (safe.ensures_weigh amount value price.current category) fun _ _ => trivial

theorem ensures_valueFilled (safe : math.Safe market) (amount value : Fixed) (side : OrderSide)
    {size : Fixed} (size_nonneg : 0 ≤ size) (price : StrictPrice) (category : MarginCategory) :
    Ensures Error.LeavesRange (fun _ => True)
      (math.valueFilled amount value side size price market category).result := by
  have positive : ¬size < 0 := by
    rw [le_iff] at size_nonneg
    rw [lt_iff]
    omega
  rw [valueFilled_eq, if_neg positive]
  refine Ensures.logged_bind (ensures_checkedNeg size) ?_
  intro removed _
  refine Ensures.logged_bind (safe.tokenValue removed price.upper) ?_
  intro ordersValue _
  refine Ensures.logged_bind (side.ensures_fillAmount amount size) ?_
  intro filledAmount _
  refine Ensures.logged_bind (side.ensures_fillValue value ordersValue) ?_
  intro filledValue _
  refine Ensures.logged_bind
    (safe.ensures_weigh filledAmount filledValue price.current category) ?_
  intro weighted _
  exact Ensures.logged_bind (ensures_checkedAdd weighted.value ordersValue) fun _ _ => trivial

theorem ensures_worstCase (safe : math.Safe market) {position : Position}
    (nonneg : position.NonNegative) (price : StrictPrice) (category : MarginCategory) :
    Ensures Error.LeavesRange (fun _ => True)
      (math.worstCase position market price category).result := by
  have passed : Ensures Error.LeavesRange (fun _ => True) position.check := by
    rw [Position.check_eq_ok_iff.mpr nonneg]
    trivial
  refine Ensures.logged_bind passed ?_
  intro _ _
  refine Ensures.logged_bind (safe.tokenAmount position.scaledBalance position.balanceType) ?_
  intro magnitude _
  refine Ensures.logged_bind (safe.signedTokenAmount magnitude position.balanceType) ?_
  intro amount _
  refine Ensures.logged_bind (safe.strictTokenValue amount price) ?_
  intro value _
  by_cases none_open : position.openBids = 0 ∧ position.openAsks = 0
  · rw [if_pos none_open]
    exact safe.ensures_valueUnfilled amount value price category
  · rw [if_neg none_open]
    refine Ensures.logged_bind
      (safe.ensures_valueFilled amount value .bid nonneg.2.1 price category) ?_
    intro bids _
    refine Ensures.logged_bind
      (safe.ensures_valueFilled amount value .ask nonneg.2.2 price category) ?_
    intro asks _
    trivial

end Safe

theorem worstCase_eq_error_of_negative {position : Position} (negative : ¬position.NonNegative)
    (math : MarketMath) (market : Market) (price : StrictPrice) (category : MarginCategory) :
    ∃ cause, (math.worstCase position market price category).result =
      .error (.argument cause) := by
  obtain ⟨cause, failed⟩ := Position.exists_check_eq_error negative
  refine ⟨cause, ?_⟩
  rw [worstCase, Logged.result_bind, Logged.result_lift, failed]
  rfl

end MarketMath

/-- The failure is a weight out of bounds. -/
def Error.IsWeight : Error → Prop
  | .weight _ => True
  | _ => False

theorem Error.isWeight_of_kind_eq {error : Error} (bound : error.kind = .weightBound) :
    error.IsWeight := by
  cases error with
  | weight => trivial
  | arithmetic cause => cases cause <;> cases bound
  | numeral cause =>
      rcases cause with _ | _ | _ | cause
      · cases bound
      · cases bound
      · cases bound
      · cases cause <;> cases bound
  | json cause => cases cause <;> cases bound
  | _ => cases bound

/-- The computation does not fail with a weight out of bounds. -/
abbrev NeverWeight {α : Type} (post : α → Prop) (x : Except Error α) : Prop :=
  Ensures (fun error => ¬error.IsWeight) post x

namespace Json

variable {α : Type}

theorem neverWeight_toFixed (key : String) (json : Json) :
    NeverWeight (fun _ => True) (json.toFixed key) := by
  unfold toFixed
  split
  · split
    · trivial
    · exact id
  · trivial
  · trivial
  · exact id

theorem neverWeight_toNat (key : String) (limit : Nat) (json : Json) :
    NeverWeight (fun _ => True) (json.toNat key limit) := by
  unfold toNat
  split
  · split
    · trivial
    · exact id
  · exact id
  · exact id

theorem neverWeight_toText (key : String) (json : Json) :
    NeverWeight (fun _ => True) (json.toText key) := by
  simp only [toText]
  split
  · trivial
  · exact id

theorem neverWeight_required {read : String → Json → Except Error α}
    (reads : ∀ key json, NeverWeight (fun _ => True) (read key json)) (json : Json)
    (key : String) : NeverWeight (fun _ => True) (json.required read key) := by
  have found : NeverWeight (fun _ => True) (json.member key) := by
    simp only [member]
    split
    · split
      · trivial
      · exact id
    · exact id
  exact found.bind_any (reads key)

theorem neverWeight_optional {read : String → Json → Except Error α}
    (reads : ∀ key json, NeverWeight (fun _ => True) (read key json)) (fallback : α) (json : Json)
    (key : String) : NeverWeight (fun _ => True) (json.optional read fallback key) := by
  rw [Json.optional]
  split
  · exact reads key _
  · trivial

end Json

theorem BalanceType.neverWeight_read (key : String) (json : Json) :
    NeverWeight (fun _ => True) (BalanceType.read key json) := by
  refine (Json.neverWeight_toText key json).bind_any ?_
  intro name
  split
  · trivial
  · exact id

theorem Position.neverWeight_ofJson (json : Json) :
    NeverWeight (fun _ => True) (Position.ofJson json) := by
  refine (Json.neverWeight_required (Json.neverWeight_toNat · 65535) json _).bind_any ?_
  intro _
  refine (Json.neverWeight_required Json.neverWeight_toFixed json _).bind_any ?_
  intro _
  refine (Json.neverWeight_required BalanceType.neverWeight_read json _).bind_any ?_
  intro _
  refine (Json.neverWeight_optional Json.neverWeight_toFixed 0 json _).bind_any ?_
  intro _
  refine (Json.neverWeight_optional Json.neverWeight_toFixed 0 json _).bind_any ?_
  intro _
  exact (Json.neverWeight_optional (Json.neverWeight_toNat · 255) 0 json _).bind_any
    fun _ => trivial

namespace Market

theorem Field.neverWeight_read (field : Field) (json : Json) :
    NeverWeight (fun _ => True) (field.read json) := by
  rw [read]
  split
  · exact Json.neverWeight_required Json.neverWeight_toFixed json _
  · exact Json.neverWeight_optional Json.neverWeight_toFixed _ json _

theorem neverWeight_ofJsonUnchecked (json : Json) :
    NeverWeight (fun _ => True) (ofJsonUnchecked json) := by
  refine (Json.neverWeight_required (Json.neverWeight_toNat · 65535) json _).bind_any ?_
  intro _
  refine (Json.neverWeight_optional Json.neverWeight_toText "" json _).bind_any ?_
  intro _
  refine (Json.neverWeight_required (Json.neverWeight_toNat · 4294967295) json _).bind_any ?_
  intro _
  apply Ensures.foldlM_any
  intro market field
  exact (field.neverWeight_read json).bind_any fun _ => trivial

/-- A market that has been read is valid. -/
theorem neverWeight_ofJson (json : Json) : NeverWeight Market.Valid (Market.ofJson json) := by
  refine (neverWeight_ofJsonUnchecked json).bind_any ?_
  intro market
  have checked : NeverWeight (fun _ => market.Valid) market.check := by
    rw [← fault?_eq_none_iff, check]
    split
    · assumption
    · exact id
  exact checked.bind fun _ valid => valid

end Market

theorem StrictPrice.neverWeight_readTwap (key : String) (json : Json) :
    NeverWeight (fun _ => True) (readTwap key json) := by
  simp only [readTwap]
  split
  · trivial
  · exact (Json.neverWeight_toFixed key json).bind_any fun _ => trivial

theorem StrictPrice.neverWeight_ofJson (json : Json) :
    NeverWeight (fun _ => True) (StrictPrice.ofJson json) := by
  refine (Json.neverWeight_required Json.neverWeight_toFixed json _).bind_any ?_
  intro _
  exact (Json.neverWeight_optional neverWeight_readTwap none json _).bind_any fun _ => trivial

theorem MarginCategory.neverWeight_ofName (name : String) :
    NeverWeight (fun _ => True) (MarginCategory.ofName name) := by
  rw [ofName]
  split
  · trivial
  · split
    · trivial
    · exact id

namespace MarketMath

/-- In a valid market the only failures are a negative magnitude and an exact result out of
range. -/
theorem worstCase_error_cases {market : Market} (valid : market.Valid) {position : Position}
    {price : StrictPrice} {category : MarginCategory} {error : Error}
    (failed : (standard.worstCase position market price category).result = .error error) :
    position.NonNegative ∧ error.LeavesRange ∨
      ¬position.NonNegative ∧ ∃ cause, error = .argument cause := by
  by_cases nonneg : position.NonNegative
  · have ensured := (safe_standard valid).ensures_worstCase nonneg price category
    exact .inl ⟨nonneg, ensured.fault_of_eq_error failed⟩
  · obtain ⟨cause, refused⟩ :=
      worstCase_eq_error_of_negative nonneg standard market price category
    rw [refused] at failed
    cases failed
    exact .inr ⟨nonneg, cause, rfl⟩

theorem neverWeight_worstCase {market : Market} (valid : market.Valid) (position : Position)
    (price : StrictPrice) (category : MarginCategory) :
    NeverWeight (fun _ => True) (standard.worstCase position market price category).result := by
  rw [NeverWeight, Ensures.iff_forall]
  refine ⟨fun _ _ => trivial, ?_⟩
  intro error failed weight
  rcases worstCase_error_cases valid failed with ⟨-, leaves⟩ | ⟨-, cause, rfl⟩
  · cases error with
    | weight => exact leaves
    | _ => exact weight
  · exact weight

end MarketMath

theorem neverWeight_worstCaseOfJson (position market price : Json) (category : String) :
    NeverWeight (fun _ => True) (worstCaseOfJson position market price category).result := by
  refine Ensures.logged_bind (Position.neverWeight_ofJson position) ?_
  intro position _
  refine Ensures.logged_bind (Market.neverWeight_ofJson market) ?_
  intro market valid
  refine Ensures.logged_bind (StrictPrice.neverWeight_ofJson price) ?_
  intro price _
  refine Ensures.logged_bind (MarginCategory.neverWeight_ofName category) ?_
  intro category _
  exact MarketMath.neverWeight_worstCase valid position price category

namespace MarketMath

/-- In a valid market a worst case fails for a negative magnitude of the position, and otherwise
only where an exact sum, difference, product or negation is out of range; the steps that are not
checked would pass a check.  From JSON a weight out of bounds is never the failure. -/
theorem worstCase_failures :
    standard = checked ∧
      (∀ market : Market, market.Valid → ∀ position price category,
        (∀ error, (standard.worstCase position market price category).result = .error error →
          error.kind = .overflow ∧ error.LeavesRange ∨
            error.kind = .argument ∧ ∃ cause, error = .argument cause) ∧
        ((∃ error, (standard.worstCase position market price category).result = .error error ∧
          error.kind = .argument) ↔ ¬position.NonNegative)) ∧
      ∀ position market price category error,
        (worstCaseOfJson position market price category).result = .error error →
          error.kind ≠ .weightBound := by
  refine ⟨standard_eq_checked, ?_, ?_⟩
  · intro market valid position price category
    constructor
    · intro error failed
      rcases worstCase_error_cases valid failed with ⟨-, leaves⟩ | ⟨-, cause, rfl⟩
      · exact .inl ⟨leaves.kind_eq, leaves⟩
      · exact .inr ⟨rfl, cause, rfl⟩
    · constructor
      · rintro ⟨error, failed, kind_eq⟩
        rcases worstCase_error_cases valid failed with ⟨-, leaves⟩ | ⟨negative, -⟩
        · rw [leaves.kind_eq] at kind_eq
          cases kind_eq
        · exact negative
      · intro negative
        obtain ⟨cause, failed⟩ :=
          worstCase_eq_error_of_negative negative standard market price category
        exact ⟨_, failed, rfl⟩
  · intro position market price category error failed bound
    have never := neverWeight_worstCaseOfJson position market price category
    exact never.fault_of_eq_error failed (Error.isWeight_of_kind_eq bound)

/-- A negative size, a balance that leaves the range once it has interest, and a text in the place
of a position. -/
theorem worstCase_failures_of_each_kind :
    let market : Market := { decimals := 19, imfFactor := 5, scaleStart := 1 }
    let negative : Position := { scaledBalance := 3, balanceType := .borrow, openAsks := -1 }
    let vast : Position := { scaledBalance := Fixed.greatest }
    let price : StrictPrice := { current := -7 }
    market.Valid ∧
      (∃ error, (standard.worstCase negative market price .initial).result = .error error ∧
        error.kind = .argument) ∧
      (∃ error, (standard.worstCase vast market price .initial).result = .error error ∧
        error.kind = .overflow ∧ error.LeavesRange) ∧
      ∃ error, (worstCaseOfJson (.string "SOL") .null .null "initial").result = .error error ∧
        error.kind ≠ .weightBound := by
  intro market negative vast price
  have valid : market.Valid := by decide
  have product : (standard.worstCase vast market price .initial).result =
      .error (.arithmetic (.overflow .mul (Fixed.greatest.toInt * 10000000000))) := by
    decide +kernel
  have text : (worstCaseOfJson (.string "SOL") .null .null "initial").result =
      .error (.json (.notObject "market_index")) := rfl
  refine ⟨valid, (worstCase_failures.2.1 _ valid _ _ _).2.mpr (by decide), ⟨_, product, ?_⟩,
    ⟨_, text, worstCase_failures.2.2 _ _ _ _ _ text⟩⟩
  rcases (worstCase_failures.2.1 _ valid _ _ _).1 _ product with overflow | ⟨argument, -⟩
  · exact overflow
  · cases argument

end MarketMath
end SpotMargin
