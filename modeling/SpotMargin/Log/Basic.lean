import SpotMargin.Position

/-!
# Log records

The levels of a logger and the events that the library reports.  A logger keeps the events at or
above its own level.
-/

namespace SpotMargin
namespace Log

/-- A level of severity.  A logger at `off` keeps nothing. -/
inductive Level
  | trace
  | debug
  | info
  | warn
  | err
  | critical
  | off
  deriving DecidableEq, Repr, Inhabited

namespace Level

def rank : Level → Nat
  | trace => 0
  | debug => 1
  | info => 2
  | warn => 3
  | err => 4
  | critical => 5
  | off => 6

def name : Level → String
  | trace => "trace"
  | debug => "debug"
  | info => "info"
  | warn => "warn"
  | err => "err"
  | critical => "critical"
  | off => "off"

/-- The level with the given name; two levels have a second name. -/
def ofName (name : String) : Except Error Level :=
  match name with
  | "trace" => .ok trace
  | "debug" => .ok debug
  | "info" => .ok info
  | "warn" => .ok warn
  | "warning" => .ok warn
  | "err" => .ok err
  | "error" => .ok err
  | "critical" => .ok critical
  | "off" => .ok off
  | _ => .error (.unknownLevel name)

@[simp]
theorem ofName_name (level : Level) : ofName level.name = .ok level := by
  cases level <;> rfl

end Level

/-- Something that the library reports. -/
inductive Event
  | weightRejected (market : UInt16) (cause : WeightError)
  /-- Of the two scenarios, with the given contributions, this side was selected. -/
  | sideSelected (market : UInt16) (category : MarginCategory) (bids asks : Fixed)
      (side : OrderSide)
  | marketLoaded (name : String) (index : UInt16) (decimals : UInt32)
  deriving DecidableEq

namespace Event

def level : Event → Level
  | weightRejected _ _ => .err
  | sideSelected _ _ _ _ _ => .trace
  | marketLoaded _ _ _ => .debug

def message : Event → String
  | weightRejected market cause =>
      "market " ++ Numeral.write market.toNat ++ ": " ++ cause.message
  | sideSelected market category bids asks side =>
      "market " ++ Numeral.write market.toNat ++ " " ++ category.name ++
        ": bids fcc " ++ bids.numeral ++ " asks fcc " ++ asks.numeral ++
        ", selected " ++ side.name
  | marketLoaded name index decimals =>
      "loaded spot market " ++ name ++ " (index " ++ Numeral.write index.toNat ++
        ", decimals " ++ Numeral.write decimals.toNat ++ ")"

/-- The event is at or above the level. -/
def Reaches (event : Event) (level : Level) : Prop :=
  level.rank ≤ event.level.rank

instance (event : Event) (level : Level) : Decidable (event.Reaches level) :=
  inferInstanceAs (Decidable (_ ≤ _))

end Event

/-- The events that a logger at the given level keeps, in order. -/
def kept (level : Level) (events : List Event) : List Event :=
  events.filter fun event => event.Reaches level

@[simp]
theorem mem_kept {level : Level} {events : List Event} {event : Event} :
    event ∈ kept level events ↔ event ∈ events ∧ event.Reaches level := by
  simp [kept]

end Log
end SpotMargin
