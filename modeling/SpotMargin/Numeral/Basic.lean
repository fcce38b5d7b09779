import SpotMargin.Fixed.Basic

/-!
# Decimal numerals

The written form of an integer: its decimal digits without leading zeros, after a minus sign when
it is negative.  Zero is written `0`.
-/

namespace SpotMargin

namespace Numeral

/-- The decimal digits of a natural number, the most significant first. -/
def digits (n : Nat) : List Char :=
  Nat.toDigits 10 n

def chars (n : Int) : List Char :=
  if n < 0 then '-' :: digits n.natAbs else digits n.natAbs

def write (n : Int) : String :=
  String.ofList (chars n)

theorem digits_ne_nil (n : Nat) : digits n ≠ [] :=
  Nat.toDigits_ne_nil

theorem isDigit_of_mem_digits {n : Nat} {c : Char} (h : c ∈ digits n) : c.isDigit = true :=
  Nat.isDigit_of_mem_toDigits (by decide) (by decide) h

theorem chars_of_neg {n : Int} (h : n < 0) : chars n = '-' :: digits n.natAbs :=
  if_pos h

theorem chars_of_nonneg {n : Int} (h : 0 ≤ n) : chars n = digits n.natAbs :=
  if_neg (by omega)

@[simp]
theorem toList_write (n : Int) : (write n).toList = chars n :=
  String.toList_ofList

end Numeral

/-- The fixed-point integer in decimal notation. -/
def Fixed.numeral (x : Fixed) : String :=
  Numeral.write x.toInt

@[simp]
theorem Fixed.toList_numeral (x : Fixed) : x.numeral.toList = Numeral.chars x.toInt :=
  Numeral.toList_write _

end SpotMargin
