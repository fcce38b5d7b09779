import SpotMargin.Fixed.Checked
import SpotMargin.Market.Basic
import SpotMargin.Position
import SpotMargin.StrictPrice

/-!
# Amounts and values

A balance is kept before interest, with nine more decimal places than a token may have.  The
conversions turn it into an amount of tokens, give the amount its sign, and price it.  `Conversion`
bundles them, so that a valuation can run with others in their place.
-/

namespace SpotMargin

/-- The power of ten by which a balance with interest exceeds an amount of tokens. -/
def Market.balanceScale (market : Market) : Except Error Fixed :=
  if Precision.balanceDecimals < market.decimals then
    .error (.market market.numberLabel (.decimals market.decimals))
  else
    Fixed.pow10 (Precision.balanceDecimals - market.decimals)

/-- The tokens that a scaled balance stands for.  Deposits are rounded down, and borrows up, so that
a debt is never understated. -/
def Market.tokenAmount (market : Market) (scaledBalance : Fixed) (type : BalanceType) :
    Except Error Fixed := do
  let scale ← market.balanceScale
  match type with
  | .deposit => Fixed.mulDiv scaledBalance market.depositInterest scale
  | .borrow => Fixed.divCeil (← Fixed.checkedMul scaledBalance market.borrowInterest) scale

/-- The amount with a sign: what is owed counts as negative. -/
def BalanceType.signedAmount (type : BalanceType) (amount : Fixed) : Except Error Fixed :=
  match type with
  | .deposit => .ok amount
  | .borrow => do Fixed.checkedNeg (← Fixed.checkedAbs amount)

/-- The value of a signed amount of tokens at a price, truncated toward zero. -/
def tokenValue (amount : Fixed) (decimals : UInt32) (price : Fixed) : Except Error Fixed :=
  if amount = 0 then
    .ok 0
  else do
    Fixed.mulDiv amount price (← Fixed.pow10 decimals)

/-- The bound of the price that is adverse to the holder of the amount. -/
def StrictPrice.adverse (price : StrictPrice) (amount : Fixed) : Fixed :=
  if 0 < amount then price.lower else price.upper

/-- The value of a signed amount of tokens at the adverse bound of a strict price. -/
def strictTokenValue (amount : Fixed) (decimals : UInt32) (price : StrictPrice) :
    Except Error Fixed :=
  tokenValue amount decimals (price.adverse amount)

/-- Ways to turn a balance into an unsigned amount of tokens, to sign an amount, and to turn a
signed amount into its value at a price or at a strict price. -/
structure Conversion where
  tokenAmount : Fixed → Market → BalanceType → Except Error Fixed
  signedTokenAmount : Fixed → BalanceType → Except Error Fixed
  tokenValue : Fixed → UInt32 → Fixed → Except Error Fixed
  strictTokenValue : Fixed → UInt32 → StrictPrice → Except Error Fixed

/-- The conversions of interest-indexed balances. -/
def Conversion.standard : Conversion where
  tokenAmount scaledBalance market type := market.tokenAmount scaledBalance type
  signedTokenAmount amount type := type.signedAmount amount
  tokenValue := SpotMargin.tokenValue
  strictTokenValue := SpotMargin.strictTokenValue

end SpotMargin
