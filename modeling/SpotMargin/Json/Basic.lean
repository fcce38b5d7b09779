import SpotMargin.Numeral.Reader

/-!
# JSON values

JSON values, and the access to the members of an object that reading a record needs.  Integers come
in two classes, which reading tells apart: a token with a minus sign is a signed integer, also when
it is `-0`, and a token without one is unsigned.  A token with a point or an exponent is real, and
so is one that 64 bits do not hold.
-/

namespace SpotMargin

/-- A JSON value.  Of several members of an object with the same key the last one counts. -/
inductive Json
  | null
  | bool (value : Bool)
  | signed (value : Int64)
  | unsigned (value : UInt64)
  /-- The number `mantissa * 10 ^ exponent`. -/
  | real (mantissa exponent : Int)
  | string (value : String)
  | array (items : List Json)
  | object (members : List (String × Json))
  deriving Inhabited

namespace Json

/-- The number that a token of digits is, with or without a minus sign before them. -/
def ofToken (minus : Bool) (digits : Nat) : Json :=
  if minus then
    if digits ≤ 0x8000_0000_0000_0000 then
      .signed (Int64.ofInt (-digits))
    else
      .real (-digits) 0
  else if digits < 0x1_0000_0000_0000_0000 then
    .unsigned (UInt64.ofNat digits)
  else
    .real digits 0

/-- A fixed-point integer is written as a string, since other readers may hold numbers in fewer
bits. -/
def ofFixed (value : Fixed) : Json :=
  .string value.numeral

def member? (key : String) : Json → Option Json
  | .object members => members.reverse.lookup key
  | _ => none

/-- The value of a member that has to be there. -/
def member (json : Json) (key : String) : Except Error Json :=
  match json with
  | .object members =>
      match members.reverse.lookup key with
      | some value => .ok value
      | none => .error (.json (.missing key))
  | _ => .error (.json (.notObject key))

/-- A fixed-point integer: a string with its numeral, or an integer of either class. -/
def toFixed (key : String) : Json → Except Error Fixed
  | .string text =>
      match Numeral.read text with
      | .ok value => .ok value
      | .error cause => .error (.numeral cause)
  | .unsigned n => .ok (Fixed.ofInt n.toNat)
  | .signed n => .ok (Fixed.ofInt n.toInt)
  | _ => .error (.json (.notInteger key))

/-- A natural number that is not above `limit`.  A signed integer is out of range whatever its
value. -/
def toNat (key : String) (limit : Nat) : Json → Except Error Nat
  | .unsigned n =>
      if n.toNat ≤ limit then .ok n.toNat else .error (.json (.outOfRange key n.toNat))
  | .signed n => .error (.json (.outOfRange key n.toInt))
  | _ => .error (.json (.notInteger key))

def toText (key : String) : Json → Except Error String
  | .string text => .ok text
  | _ => .error (.json (.notString key))

/-- Reads a member that has to be there. -/
def required {α : Type} (read : String → Json → Except Error α) (json : Json) (key : String) :
    Except Error α := do
  read key (← json.member key)

/-- Reads a member when it is there. -/
def optional {α : Type} (read : String → Json → Except Error α) (fallback : α) (json : Json)
    (key : String) : Except Error α :=
  match json.member? key with
  | some value => read key value
  | none => .ok fallback

end Json
end SpotMargin
