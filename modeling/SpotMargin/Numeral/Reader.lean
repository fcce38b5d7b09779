import SpotMargin.Error

/-!
# Reading decimal numerals

A numeral is an optional sign and then digits, between which underscores may stand anywhere.
Reading goes from the left and stops at the first fault, be it a character that does not belong
there or a running value out of range.
-/

namespace SpotMargin
namespace Numeral

def digitValue (c : Char) : Nat :=
  c.toNat - '0'.toNat

/-- Extends the running value by the digits of `body`, where `text` is the whole numeral.  The
running value is kept at or below zero, so that the least integer is within reach. -/
def descend (text : String) (value : Fixed) : List Char → Except NumeralError Fixed
  | [] => .ok value
  | c :: rest =>
      if c = '_' then
        descend text value rest
      else if c.isDigit then
        match Fixed.ofInt? (10 * value.toInt - digitValue c) with
        | some next => descend text next rest
        | none => .error (.outOfRange text)
      else
        .error (.malformed text)

/-- Splits the sign off: whether it is a minus sign, and what follows. -/
def splitSign : List Char → Bool × List Char
  | '-' :: body => (true, body)
  | '+' :: body => (false, body)
  | body => (false, body)

/-- The fixed-point integer that a numeral names. -/
def read (text : String) : Except NumeralError Fixed :=
  if text.isEmpty then
    .error .empty
  else
    let (negative, body) := splitSign text.toList
    match descend text 0 body with
    | .error cause => .error cause
    | .ok value =>
        if !body.any Char.isDigit then
          .error (.malformed text)
        else if negative then
          .ok value
        else
          match Fixed.ofInt? (-value.toInt) with
          | some result => .ok result
          | none => .error (.arithmetic (.overflow .neg (-value.toInt)))

@[simp]
theorem descend_nil (text : String) (value : Fixed) : descend text value [] = .ok value :=
  rfl

@[simp]
theorem descend_underscore (text : String) (value : Fixed) (rest : List Char) :
    descend text value ('_' :: rest) = descend text value rest := by
  simp [descend]

theorem descend_digit {c : Char} (digit : c.isDigit = true) (text : String) (value : Fixed)
    (rest : List Char) :
    descend text value (c :: rest) =
      match Fixed.ofInt? (10 * value.toInt - digitValue c) with
      | some next => descend text next rest
      | none => .error (.outOfRange text) := by
  have other : c ≠ '_' := by
    rintro rfl
    exact absurd digit (by decide)
  simp [descend, other, digit]

end Numeral
end SpotMargin
