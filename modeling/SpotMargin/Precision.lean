import SpotMargin.Fixed.Basic

/-!
# Precisions

One unit of each quantity, as a fixed-point integer.  Prices and values share the unit of size
curves, a millionth.
-/

namespace SpotMargin
namespace Precision

/-- One, as a weight. -/
def weight : Fixed := 10000

/-- One, as the strength of a size curve. -/
def imf : Fixed := 1000000

/-- One token, as the size that the weight curves look at. -/
def reserve : Fixed := 1000000000

/-- One, as the growth of a balance through interest. -/
def interest : Fixed := 10000000000

/-- Decimal places of the product of a scaled balance and its interest; the limit for the decimal
places of a token. -/
def balanceDecimals : UInt32 := 19

@[simp]
theorem toInt_weight : weight.toInt = 10000 :=
  rfl

@[simp]
theorem toInt_imf : imf.toInt = 1000000 :=
  rfl

@[simp]
theorem toInt_reserve : reserve.toInt = 1000000000 :=
  rfl

@[simp]
theorem toInt_interest : interest.toInt = 10000000000 :=
  rfl

@[simp]
theorem toNat_balanceDecimals : balanceDecimals.toNat = 19 :=
  rfl

end Precision
end SpotMargin
