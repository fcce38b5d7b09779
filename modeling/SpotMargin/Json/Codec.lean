import SpotMargin.Json.Basic
import SpotMargin.Scenario

/-!
# Records in JSON

Positions, markets, prices and scenarios as JSON objects.  Reading looks at the fields of a record
in a fixed order and fails at the first that is missing or malformed; members that are no field of
the record are passed over.
-/

namespace SpotMargin

namespace Position

def toJson (position : Position) : Json :=
  .object [
    ("market_index", .unsigned position.marketIndex.toUInt64),
    ("scaled_balance", .ofFixed position.scaledBalance),
    ("balance_type", .string position.balanceType.name),
    ("open_bids", .ofFixed position.openBids),
    ("open_asks", .ofFixed position.openAsks),
    ("open_orders", .unsigned position.openOrders.toUInt64)]

end Position

def BalanceType.read (key : String) (json : Json) : Except Error BalanceType := do
  let name ← json.toText key
  match ofName? name with
  | some type => return type
  | none => .error (.json (.unknownBalanceType name))

/-- The position that an object describes; sizes and count of orders may be left out. -/
def Position.ofJson (json : Json) : Except Error Position := do
  let marketIndex ← json.required (Json.toNat · 65535) "market_index"
  let scaledBalance ← json.required Json.toFixed "scaled_balance"
  let balanceType ← json.required BalanceType.read "balance_type"
  let openBids ← json.optional Json.toFixed 0 "open_bids"
  let openAsks ← json.optional Json.toFixed 0 "open_asks"
  let openOrders ← json.optional (Json.toNat · 255) 0 "open_orders"
  return {
    marketIndex := marketIndex.toUInt16
    scaledBalance
    balanceType
    openBids
    openAsks
    openOrders := openOrders.toUInt8
  }

/-- A market in JSON has to state the weights; the other parameters may be left out. -/
def Market.Field.isRequired : Market.Field → Bool
  | initialAssetWeight | maintenanceAssetWeight
  | initialLiabilityWeight | maintenanceLiabilityWeight => true
  | depositInterest | borrowInterest | depositBalance | imfFactor | scaleStart => false

/-- The value of a parameter in an object, or its default. -/
def Market.Field.read (field : Market.Field) (json : Json) : Except Error Fixed :=
  if field.isRequired then
    json.required Json.toFixed field.key
  else
    json.optional Json.toFixed (Market.get {} field) field.key

namespace Market

def toJson (market : Market) : Json :=
  .object <| [
    ("market_index", .unsigned market.index.toUInt64),
    ("name", .string market.name),
    ("decimals", .unsigned market.decimals.toUInt64)] ++
    Field.all.map fun field => (field.key, .ofFixed (market.get field))

/-- The market that an object describes, valid or not. -/
def ofJsonUnchecked (json : Json) : Except Error Market := do
  let index ← json.required (Json.toNat · 65535) "market_index"
  let name ← json.optional Json.toText "" "name"
  let decimals ← json.required (Json.toNat · 4294967295) "decimals"
  let start : Market := { index := index.toUInt16, name, decimals := decimals.toUInt32 }
  Field.all.foldlM (fun market field => return market.set field (← field.read json)) start

def ofJson (json : Json) : Except Error Market := do
  let market ← ofJsonUnchecked json
  market.check
  return market

end Market

namespace StrictPrice

def toJson (price : StrictPrice) : Json :=
  .object <| ("current", .ofFixed price.current) ::
    match price.twap with
    | some twap => [("twap", .ofFixed twap)]
    | none => []

/-- An optional fixed-point integer, where `null` stands for none. -/
def readTwap (key : String) : Json → Except Error (Option Fixed)
  | .null => .ok none
  | json => some <$> json.toFixed key

def ofJson (json : Json) : Except Error StrictPrice := do
  let current ← json.required Json.toFixed "current"
  let twap ← json.optional readTwap none "twap"
  return { current, twap }

end StrictPrice

namespace Scenario

def toJson (scenario : Scenario) : Json :=
  .object [
    ("token_amount", .ofFixed scenario.tokenAmount),
    ("orders_value", .ofFixed scenario.ordersValue),
    ("token_value", .ofFixed scenario.tokenValue),
    ("weight", .ofFixed scenario.weight),
    ("weighted_token_value", .ofFixed scenario.weightedTokenValue),
    ("free_collateral_contribution", .ofFixed scenario.freeCollateral)]

def ofJson (json : Json) : Except Error Scenario := do
  let tokenAmount ← json.required Json.toFixed "token_amount"
  let ordersValue ← json.required Json.toFixed "orders_value"
  let tokenValue ← json.required Json.toFixed "token_value"
  let weight ← json.required Json.toFixed "weight"
  let weightedTokenValue ← json.required Json.toFixed "weighted_token_value"
  let freeCollateral ← json.required Json.toFixed "free_collateral_contribution"
  return { tokenAmount, ordersValue, tokenValue, weight, weightedTokenValue, freeCollateral }

end Scenario

/-- The worst case of a position, a market and a price given in JSON and a category given by name.
They are read in this order. -/
def worstCaseOfJson (position market price : Json) (category : String) : Logged Scenario := do
  let position ← Position.ofJson position
  let market ← Market.ofJson market
  let price ← StrictPrice.ofJson price
  let category ← MarginCategory.ofName category
  MarketMath.standard.worstCase position market price category

end SpotMargin
