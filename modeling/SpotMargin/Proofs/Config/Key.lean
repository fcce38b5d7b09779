import SpotMargin.Config.Reader
import SpotMargin.Proofs.Outcome

/-!
# The keys of a market section

A market section has eleven keys, and under each of them a market has an integer.  `assign_name`
says what an assignment under a key does, and `ext_valueAt` that nothing but the name of a market is
left out of this view.
-/

namespace SpotMargin
namespace Market

/-- A key of the section of a market. -/
inductive Key
  | index
  | decimals
  | field (parameter : Field)
  deriving DecidableEq

namespace Key

/-- The key as it is written. -/
def name : Key → String
  | .index => "market_index"
  | .decimals => "decimals"
  | .field parameter => parameter.key

/-- The market can hold the integer under the key. -/
def Takes : Key → Int → Prop
  | .index, n => 0 ≤ n ∧ n ≤ 65535
  | .decimals, n => 0 ≤ n ∧ n ≤ 19
  | .field _, _ => True

instance (key : Key) (n : Int) : Decidable (key.Takes n) := by
  cases key <;> unfold Takes <;> infer_instance

theorem field_ne_index (parameter : Field) : parameter.key ≠ "market_index" := by
  cases parameter <;> decide

theorem field_ne_decimals (parameter : Field) : parameter.key ≠ "decimals" := by
  cases parameter <;> decide

theorem name_injective {a b : Key} (same : a.name = b.name) : a = b := by
  cases a with
  | index =>
      cases b with
      | index => rfl
      | decimals => exact absurd same (by decide)
      | field parameter => exact absurd same.symm (field_ne_index parameter)
  | decimals =>
      cases b with
      | index => exact absurd same (by decide)
      | decimals => rfl
      | field parameter => exact absurd same.symm (field_ne_decimals parameter)
  | field parameter =>
      cases b with
      | index => exact absurd same (field_ne_index parameter)
      | decimals => exact absurd same (field_ne_decimals parameter)
      | field other => rw [Field.key_injective same]

end Key

variable {market other : Market} {key : Key} {value : Fixed}

/-- The integer under a key. -/
def valueAt (market : Market) : Key → Int
  | .index => market.index.toNat
  | .decimals => market.decimals.toNat
  | .field parameter => (market.get parameter).toInt

/-- The market with the integer under one key replaced. -/
def setAt (market : Market) (key : Key) (value : Fixed) : Market :=
  match key with
  | .index => { market with index := value.toInt.toNat.toUInt16 }
  | .decimals => { market with decimals := value.toInt.toNat.toUInt32 }
  | .field parameter => market.set parameter value

theorem valueAt_setAt_self (takes : key.Takes value.toInt) :
    (market.setAt key value).valueAt key = value.toInt := by
  cases key with
  | index =>
      simp only [Key.Takes] at takes
      simp only [valueAt, setAt, Nat.toUInt16, UInt16.toNat_ofNat']
      omega
  | decimals =>
      simp only [Key.Takes] at takes
      simp only [valueAt, setAt, Nat.toUInt32, UInt32.toNat_ofNat']
      omega
  | field parameter => simp [valueAt, setAt]

theorem valueAt_setAt_of_ne {changed : Key} (h : key ≠ changed) :
    (market.setAt changed value).valueAt key = market.valueAt key := by
  cases changed with
  | index => cases key <;> first | contradiction | rfl
  | decimals => cases key <;> first | contradiction | rfl
  | field parameter =>
      cases key with
      | index => simp [valueAt, setAt]
      | decimals => simp [valueAt, setAt]
      | field other =>
          have : other ≠ parameter := fun same => h (same ▸ rfl)
          simp [valueAt, setAt, get_set_of_ne _ _ this]

@[simp]
theorem name_setAt (market : Market) (key : Key) (value : Fixed) :
    (market.setAt key value).name = market.name := by
  cases key with
  | index => rfl
  | decimals => rfl
  | field parameter => exact name_set market parameter value

@[simp]
theorem valueAt_with_name (market : Market) (name : String) (key : Key) :
    ({ market with name } : Market).valueAt key = market.valueAt key := by
  cases key with
  | index => rfl
  | decimals => rfl
  | field parameter => cases parameter <;> rfl

/-- A market is known by its name and the integers under its keys. -/
theorem ext_valueAt (name : market.name = other.name)
    (values : ∀ key, market.valueAt key = other.valueAt key) : market = other := by
  have index : market.index = other.index :=
    UInt16.toNat_inj.mp (Int.ofNat_inj.mp (values .index))
  have decimals : market.decimals = other.decimals :=
    UInt32.toNat_inj.mp (Int.ofNat_inj.mp (values .decimals))
  have fields (parameter : Field) : market.get parameter = other.get parameter :=
    Fixed.ext (values (.field parameter))
  cases market
  cases other
  simp only [Market.mk.injEq]
  exact ⟨index, name, decimals, fields .depositInterest, fields .borrowInterest,
    fields .depositBalance, fields .initialAssetWeight, fields .maintenanceAssetWeight,
    fields .initialLiabilityWeight, fields .maintenanceLiabilityWeight, fields .imfFactor,
    fields .scaleStart⟩

/-- A natural number is read as a fixed-point integer, and then its range is looked at. -/
private theorem readNat_eq (limit : Nat) (value : String) :
    Config.readNat limit value =
      match Numeral.read value with
      | .ok n =>
          if 0 ≤ n.toInt ∧ n.toInt ≤ limit then .ok n.toInt.toNat else .error (.outOfRange value)
      | .error cause => .error (.numeral cause) := by
  rw [Config.readNat, Config.readFixed]
  cases Numeral.read value <;> rfl

/-- Assigning under a key sets the integer that the value names, if the key can take it. -/
theorem assign_name (market : Market) (key : Key) (value : String) :
    market.assign key.name value =
      match Numeral.read value with
      | .ok n => if key.Takes n.toInt then .ok (market.setAt key n) else .error (.outOfRange value)
      | .error cause => .error (.numeral cause) := by
  cases key with
  | index =>
      rw [Key.name, assign, if_pos rfl, readNat_eq]
      cases Numeral.read value with
      | error cause => rfl
      | ok n =>
          by_cases takes : Key.Takes .index n.toInt
          · have bounds : 0 ≤ n.toInt ∧ n.toInt ≤ (65535 : Nat) := takes
            simp only [if_pos takes, if_pos bounds]
            rfl
          · have bounds : ¬(0 ≤ n.toInt ∧ n.toInt ≤ (65535 : Nat)) := takes
            simp only [if_neg takes, if_neg bounds]
            rfl
  | decimals =>
      rw [Key.name, assign, if_neg (by decide), if_pos rfl, readNat_eq]
      cases Numeral.read value with
      | error cause => rfl
      | ok n =>
          by_cases takes : Key.Takes .decimals n.toInt
          · have bounds : 0 ≤ n.toInt ∧ n.toInt ≤ Precision.balanceDecimals.toNat := takes
            simp only [if_pos takes, if_pos bounds]
            rfl
          · have bounds : ¬(0 ≤ n.toInt ∧ n.toInt ≤ Precision.balanceDecimals.toNat) := takes
            simp only [if_neg takes, if_neg bounds]
            rfl
  | field parameter =>
      have found : Field.ofKey? parameter.key = some parameter := Field.ofKey?_eq_some_iff.mpr rfl
      simp only [assign, Key.name, Key.field_ne_index, Key.field_ne_decimals, if_false, found,
        Config.readFixed]
      cases Numeral.read value with
      | error cause => rfl
      | ok n =>
          have takes : Key.Takes (.field parameter) n.toInt := trivial
          simp only [if_pos takes]
          rfl

theorem assign_of_unknown {key : String} (unknown : ∀ known : Key, key ≠ known.name)
    (market : Market) (value : String) :
    market.assign key value = .error (.unknownMarketKey key) := by
  have absent : Field.ofKey? key = none := by
    cases found : Field.ofKey? key with
    | none => rfl
    | some parameter =>
        exact absurd (Field.ofKey?_eq_some_iff.mp found).symm (unknown (.field parameter))
  have not_index : key ≠ "market_index" := unknown .index
  have not_decimals : key ≠ "decimals" := unknown .decimals
  simp only [assign, not_index, not_decimals, if_false, absent]

end Market
end SpotMargin
