import SpotMargin.Error

/-!
# Spot markets

The parameters of one spot market and their validity.  `Market.check` finds the first fault in a
fixed order; `check_eq_ok_iff` says that it passes exactly the valid markets.
-/

namespace SpotMargin

/-- The parameters of one spot market.  Interest is the growth of balances since the market opened,
and the deposit balance is that of all accounts, before interest.  `imfFactor` is the strength of
the size curves, and `scaleStart` the value of all deposits from which the initial asset weight is
derated; zero turns either off. -/
structure Market where
  index : UInt16 := 0
  name : String := ""
  decimals : UInt32 := 6
  depositInterest : Fixed := Precision.interest
  borrowInterest : Fixed := Precision.interest
  depositBalance : Fixed := 0
  initialAssetWeight : Fixed := Precision.weight
  maintenanceAssetWeight : Fixed := Precision.weight
  initialLiabilityWeight : Fixed := Precision.weight
  maintenanceLiabilityWeight : Fixed := Precision.weight
  imfFactor : Fixed := 0
  scaleStart : Fixed := 0
  deriving DecidableEq, Inhabited

namespace Market

def get (market : Market) : Field → Fixed
  | .depositInterest => market.depositInterest
  | .borrowInterest => market.borrowInterest
  | .depositBalance => market.depositBalance
  | .initialAssetWeight => market.initialAssetWeight
  | .maintenanceAssetWeight => market.maintenanceAssetWeight
  | .initialLiabilityWeight => market.initialLiabilityWeight
  | .maintenanceLiabilityWeight => market.maintenanceLiabilityWeight
  | .imfFactor => market.imfFactor
  | .scaleStart => market.scaleStart

def set (market : Market) (field : Field) (value : Fixed) : Market :=
  match field with
  | .depositInterest => { market with depositInterest := value }
  | .borrowInterest => { market with borrowInterest := value }
  | .depositBalance => { market with depositBalance := value }
  | .initialAssetWeight => { market with initialAssetWeight := value }
  | .maintenanceAssetWeight => { market with maintenanceAssetWeight := value }
  | .initialLiabilityWeight => { market with initialLiabilityWeight := value }
  | .maintenanceLiabilityWeight => { market with maintenanceLiabilityWeight := value }
  | .imfFactor => { market with imfFactor := value }
  | .scaleStart => { market with scaleStart := value }

@[simp]
theorem get_set_self (market : Market) (field : Field) (value : Fixed) :
    (market.set field value).get field = value := by
  cases field <;> rfl

theorem get_set_of_ne (market : Market) {field other : Field} (value : Fixed)
    (h : other ≠ field) : (market.set field value).get other = market.get other := by
  cases field <;> cases other <;> simp_all [set, get]

@[simp]
theorem index_set (market : Market) (field : Field) (value : Fixed) :
    (market.set field value).index = market.index := by
  cases field <;> rfl

@[simp]
theorem name_set (market : Market) (field : Field) (value : Fixed) :
    (market.set field value).name = market.name := by
  cases field <;> rfl

@[simp]
theorem decimals_set (market : Market) (field : Field) (value : Fixed) :
    (market.set field value).decimals = market.decimals := by
  cases field <;> rfl

/-- The market by number, as failures call it. -/
def numberLabel (market : Market) : String :=
  "market " ++ Numeral.write market.index.toNat

/-- The name of the market, or its number when it has no name. -/
def label (market : Market) : String :=
  if market.name.isEmpty then market.numberLabel else market.name

/-- The parameter lies in the range that valuation needs. -/
def FieldValid (market : Market) (field : Field) : Prop :=
  match field with
  | .depositInterest | .borrowInterest => 0 < market.get field
  | .depositBalance | .imfFactor | .scaleStart => 0 ≤ market.get field
  | .initialAssetWeight | .maintenanceAssetWeight =>
      0 ≤ market.get field ∧ market.get field ≤ Precision.weight
  | .initialLiabilityWeight | .maintenanceLiabilityWeight =>
      Precision.weight ≤ market.get field

instance (market : Market) (field : Field) : Decidable (market.FieldValid field) := by
  cases field <;> unfold FieldValid <;> infer_instance

def fault (field : Field) : MarketError :=
  match field with
  | .depositInterest | .borrowInterest => .notPositive field
  | .depositBalance | .imfFactor | .scaleStart => .negative field
  | .initialAssetWeight | .maintenanceAssetWeight => .notFraction field
  | .initialLiabilityWeight | .maintenanceLiabilityWeight => .belowOne field

/-- The market can be used for valuation. -/
def Valid (market : Market) : Prop :=
  market.decimals ≤ Precision.balanceDecimals ∧ ∀ field ∈ Field.all, market.FieldValid field

instance (market : Market) : Decidable market.Valid :=
  inferInstanceAs (Decidable (_ ∧ _))

/-- The first fault of the market, where the decimal places come before the other parameters. -/
def fault? (market : Market) : Option MarketError :=
  if Precision.balanceDecimals < market.decimals then
    some (.decimals market.decimals)
  else
    (Field.all.find? fun field => ¬market.FieldValid field).map fault

/-- Passes a valid market, and fails with the first fault of any other. -/
def check (market : Market) : Except Error Unit :=
  match market.fault? with
  | none => .ok ()
  | some cause => .error (.market market.label cause)

theorem fault?_eq_none_iff {market : Market} : market.fault? = none ↔ market.Valid := by
  unfold fault? Valid
  split
  · rename_i above
    simp [UInt32.not_le.mpr above]
  · rename_i above
    simp [UInt32.not_lt.mp above]

theorem check_eq_ok_iff {market : Market} : market.check = .ok () ↔ market.Valid := by
  rw [← fault?_eq_none_iff, check]
  cases market.fault? <;> simp

theorem kind_of_check_eq_error {market : Market} {error : Error}
    (failed : market.check = .error error) : error.kind = .configuration := by
  unfold check at failed
  split at failed
  · cases failed
  · cases failed
    rfl

end Market
end SpotMargin
