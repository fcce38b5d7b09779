import SpotMargin.Error

/-!
# Spot positions

What one account holds or owes in one market, with the orders that rest there, and the names of the
choices that go with it.
-/

namespace SpotMargin

/-- Whether a balance is held or owed. -/
inductive BalanceType
  | deposit
  | borrow
  deriving DecidableEq, Repr, Inhabited

namespace BalanceType

def name : BalanceType → String
  | deposit => "deposit"
  | borrow => "borrow"

def ofName? (name : String) : Option BalanceType :=
  if name = deposit.name then some deposit
  else if name = borrow.name then some borrow
  else none

theorem ofName?_eq_some_iff {name : String} {type : BalanceType} :
    ofName? name = some type ↔ name = type.name := by
  unfold ofName?
  split
  · cases type <;> simp_all [BalanceType.name]
  · split <;> cases type <;> simp_all [BalanceType.name]

end BalanceType

/-- The purpose of a valuation, opening positions or keeping them, which selects the weights. -/
inductive MarginCategory
  | initial
  | maintenance
  deriving DecidableEq, Repr, Inhabited

namespace MarginCategory

def name : MarginCategory → String
  | initial => "initial"
  | maintenance => "maintenance"

def ofName (name : String) : Except Error MarginCategory :=
  if name = initial.name then .ok initial
  else if name = maintenance.name then .ok maintenance
  else .error (.unknownCategory name)

theorem ofName_eq_ok_iff {name : String} {category : MarginCategory} :
    ofName name = .ok category ↔ name = category.name := by
  unfold ofName
  split
  · cases category <;> simp_all [MarginCategory.name]
  · split <;> cases category <;> simp_all [MarginCategory.name]

end MarginCategory

/-- The side of an order: a bid buys and an ask sells. -/
inductive OrderSide
  | bid
  | ask
  deriving DecidableEq, Repr, Inhabited

def OrderSide.name : OrderSide → String
  | bid => "bid"
  | ask => "ask"

/-- The magnitude of a balance in one market, before interest, with the tokens that the orders
resting there would buy and sell, and the number of these orders. -/
structure Position where
  marketIndex : UInt16 := 0
  scaledBalance : Fixed := 0
  balanceType : BalanceType := .deposit
  openBids : Fixed := 0
  openAsks : Fixed := 0
  openOrders : UInt8 := 0
  deriving DecidableEq, Inhabited

namespace Position

/-- The slot holds nothing and has no resting orders. -/
def isAvailable (position : Position) : Bool :=
  position.scaledBalance = 0 && position.openOrders = 0

/-- No magnitude of the position is negative. -/
def NonNegative (position : Position) : Prop :=
  0 ≤ position.scaledBalance ∧ 0 ≤ position.openBids ∧ 0 ≤ position.openAsks

instance (position : Position) : Decidable position.NonNegative :=
  inferInstanceAs (Decidable (_ ∧ _ ∧ _))

/-- Fails when a magnitude is negative; the balance comes before the bids and the bids before the
asks. -/
def check (position : Position) : Except Error Unit :=
  if position.scaledBalance < 0 then .error (.argument .negativeBalance)
  else if position.openBids < 0 then .error (.argument .negativeBids)
  else if position.openAsks < 0 then .error (.argument .negativeAsks)
  else .ok ()

theorem check_eq_ok_iff {position : Position} :
    position.check = .ok () ↔ position.NonNegative := by
  unfold check NonNegative
  simp only [Fixed.le_iff, Fixed.lt_iff]
  split
  · simp only [reduceCtorEq, false_iff]
    omega
  · split
    · simp only [reduceCtorEq, false_iff]
      omega
    · split
      · simp only [reduceCtorEq, false_iff]
        omega
      · simp only [true_iff]
        omega

def HasOpenSize (position : Position) : Prop :=
  ¬(position.openBids = 0 ∧ position.openAsks = 0)

instance (position : Position) : Decidable position.HasOpenSize :=
  inferInstanceAs (Decidable (¬_))

end Position
end SpotMargin
