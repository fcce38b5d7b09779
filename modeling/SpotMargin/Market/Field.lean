/-!
# The fixed-point parameters of a market

A market has nine fixed-point parameters.  `Market.Field` names them, with the key under which each
is written in a configuration text and in JSON.
-/

namespace SpotMargin
namespace Market

/-- A fixed-point parameter of a market. -/
inductive Field
  | depositInterest
  | borrowInterest
  | depositBalance
  | initialAssetWeight
  | maintenanceAssetWeight
  | initialLiabilityWeight
  | maintenanceLiabilityWeight
  | imfFactor
  | scaleStart
  deriving DecidableEq, Repr

namespace Field

/-- Every parameter, in the order in which they are written. -/
def all : List Field :=
  [depositInterest, borrowInterest, depositBalance, initialAssetWeight, maintenanceAssetWeight,
    initialLiabilityWeight, maintenanceLiabilityWeight, imfFactor, scaleStart]

def key : Field → String
  | depositInterest => "cumulative_deposit_interest"
  | borrowInterest => "cumulative_borrow_interest"
  | depositBalance => "deposit_balance"
  | initialAssetWeight => "initial_asset_weight"
  | maintenanceAssetWeight => "maintenance_asset_weight"
  | initialLiabilityWeight => "initial_liability_weight"
  | maintenanceLiabilityWeight => "maintenance_liability_weight"
  | imfFactor => "imf_factor"
  | scaleStart => "scale_initial_asset_weight_start"

def ofKey? (key : String) : Option Field :=
  all.find? (·.key = key)

theorem mem_all (field : Field) : field ∈ all := by
  cases field <;> decide

theorem key_injective {a b : Field} (h : a.key = b.key) : a = b := by
  revert h
  cases a <;> cases b <;> decide

theorem ofKey?_eq_some_iff {key : String} {field : Field} :
    ofKey? key = some field ↔ field.key = key := by
  constructor
  · intro h
    simpa using List.find?_some h
  · rintro rfl
    cases h : ofKey? field.key with
    | none => exact absurd (List.find?_eq_none.mp h field field.mem_all) (by simp)
    | some other =>
        have same : other.key = field.key := by simpa using List.find?_some h
        rw [key_injective same]

end Field
end Market
end SpotMargin
