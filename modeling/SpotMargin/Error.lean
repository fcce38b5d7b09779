import SpotMargin.Market.Field
import SpotMargin.Numeral.Basic
import SpotMargin.Precision

/-!
# Errors

Every failure of the library is a value that names its cause.  `Error.message` gives the wording,
and `Error.kind` the class of the failure, which is all that a caller needs to tell apart.
-/

namespace SpotMargin

/-- An operation whose exact result may leave the range of fixed-point integers. -/
inductive Operation
  | add
  | sub
  | mul
  | neg
  | div
  deriving DecidableEq, Repr

def Operation.name : Operation → String
  | add => "add"
  | sub => "sub"
  | mul => "mul"
  | neg => "neg"
  | div => "div"

/-- A failure of fixed-point arithmetic. -/
inductive ArithmeticError
  /-- The exact result of the operation is out of range. -/
  | overflow (operation : Operation) (exact : Int)
  | divisionByZero
  /-- This power of ten is not attempted, since it is out of range. -/
  | powerOfTen (exponent : UInt32)
  | negativeRadicand
  deriving DecidableEq

/-- A text that is not the numeral of a fixed-point integer. -/
inductive NumeralError
  | empty
  /-- The text has no digit, or has a character that is not part of a numeral. -/
  | malformed (text : String)
  | outOfRange (text : String)
  /-- The digits name the magnitude of the least integer, without its minus sign. -/
  | arithmetic (cause : ArithmeticError)
  deriving DecidableEq

/-- A market with parameters that cannot be used for valuation. -/
inductive MarketError
  | decimals (given : UInt32)
  | notPositive (field : Market.Field)
  | negative (field : Market.Field)
  | notFraction (field : Market.Field)
  | belowOne (field : Market.Field)
  deriving DecidableEq

/-- A weight curve left its bound. -/
inductive WeightError
  | asset (weight : Fixed)
  | liability (weight : Fixed)
  deriving DecidableEq

/-- A negative size, where sizes are magnitudes. -/
inductive ArgumentError
  | negativeBalance
  | negativeBids
  | negativeAsks
  | negativeOrderSize
  deriving DecidableEq

/-- A line of a configuration text that has no meaning. -/
inductive LineError
  | unterminatedHeader
  | namelessMarket
  | unknownSection (title : String)
  | notAssignment
  | unknownGeneralKey (key : String)
  | unknownMarketKey (key : String)
  /-- An assignment stands before the first header. -/
  | strayKey (key : String)
  | outOfRange (value : String)
  | numeral (cause : NumeralError)
  deriving DecidableEq

/-- A JSON value that does not have the expected shape. -/
inductive JsonError
  | notObject (key : String)
  | missing (key : String)
  | notString (key : String)
  | notInteger (key : String)
  | outOfRange (key : String) (given : Int)
  | unknownBalanceType (name : String)
  deriving DecidableEq

/-- A failure of the library. -/
inductive Error
  | arithmetic (cause : ArithmeticError)
  | numeral (cause : NumeralError)
  /-- A market, known by its label, cannot be used for valuation. -/
  | market (label : String) (cause : MarketError)
  | weight (cause : WeightError)
  | argument (cause : ArgumentError)
  | unknownCategory (name : String)
  | unknownLevel (name : String)
  | missingFile (path : String)
  /-- A line of a configuration text, counted from one, has no meaning. -/
  | line (number : Nat) (cause : LineError)
  | json (cause : JsonError)
  deriving DecidableEq

inductive ErrorKind
  | overflow
  | weightBound
  | configuration
  | argument
  | json
  deriving DecidableEq, Repr

def ArithmeticError.kind : ArithmeticError → ErrorKind
  | overflow _ _ | divisionByZero | powerOfTen _ => .overflow
  | negativeRadicand => .argument

def NumeralError.kind : NumeralError → ErrorKind
  | empty | malformed _ => .configuration
  | outOfRange _ => .overflow
  | arithmetic cause => cause.kind

def JsonError.kind : JsonError → ErrorKind
  | notObject _ | missing _ | notString _ => .json
  | notInteger _ | outOfRange _ _ | unknownBalanceType _ => .configuration

/-- The class of a failure.  Whatever is wrong with a line, it is the configuration that fails. -/
def Error.kind : Error → ErrorKind
  | arithmetic cause => cause.kind
  | numeral cause => cause.kind
  | weight _ => .weightBound
  | argument _ => .argument
  | market _ _ | unknownCategory _ | unknownLevel _ | missingFile _ | line _ _ => .configuration
  | json cause => cause.kind

def ArithmeticError.message : ArithmeticError → String
  | overflow operation _ => "fp::" ++ operation.name ++ " overflow"
  | divisionByZero => "fp::div by zero"
  | powerOfTen exponent => "fp::pow10 exponent " ++ Numeral.write exponent.toNat
  | negativeRadicand => "fp::isqrt of negative value"

def NumeralError.message : NumeralError → String
  | empty => "empty fixed-point integer"
  | malformed text => "invalid fixed-point integer: " ++ text
  | outOfRange text => "fixed-point integer out of range: " ++ text
  | arithmetic cause => cause.message

/-- The wording of a fault in a market, without the market's label. -/
def MarketError.message : MarketError → String
  | decimals given =>
      "decimals " ++ Numeral.write given.toNat ++ " exceeds " ++
        Numeral.write Precision.balanceDecimals.toNat
  | notPositive field => field.key ++ " must be positive"
  | negative field => field.key ++ " must be non-negative"
  | notFraction field => field.key ++ " out of [0, " ++ Precision.weight.numeral ++ "]"
  | belowOne field => field.key ++ " below " ++ Precision.weight.numeral

def WeightError.message : WeightError → String
  | asset weight =>
      "asset weight " ++ weight.numeral ++ " outside [0, " ++ Precision.weight.numeral ++ "]"
  | liability weight =>
      "liability weight " ++ weight.numeral ++ " below " ++ Precision.weight.numeral

def ArgumentError.message : ArgumentError → String
  | negativeBalance => "scaled balance must be non-negative"
  | negativeBids => "open bids must be non-negative"
  | negativeAsks => "open asks must be non-negative"
  | negativeOrderSize => "open order size must be non-negative"

/-- The wording of a meaningless line, without its number. -/
def LineError.message : LineError → String
  | unterminatedHeader => "unterminated section header"
  | namelessMarket => "market section needs a name"
  | unknownSection title => "unknown section [" ++ title ++ "]"
  | notAssignment => "expected key = value"
  | unknownGeneralKey key => "unknown general key '" ++ key ++ "'"
  | unknownMarketKey key => "unknown market key '" ++ key ++ "'"
  | strayKey key => "key '" ++ key ++ "' outside of a section"
  | outOfRange value => "value out of range: " ++ value
  | numeral cause => cause.message

def JsonError.message : JsonError → String
  | notObject key => "no object to take '" ++ key ++ "' from"
  | missing key => "field '" ++ key ++ "' is missing"
  | notString key => "field '" ++ key ++ "' is not a string"
  | notInteger key => "field '" ++ key ++ "' is not an integer"
  | outOfRange key given => "field '" ++ key ++ "' out of range: " ++ Numeral.write given
  | unknownBalanceType name => "unknown balance type: " ++ name

/-- The wording of a failure. -/
def Error.message : Error → String
  | arithmetic cause => cause.message
  | numeral cause => cause.message
  | market label cause => label ++ ": " ++ cause.message
  | weight cause => cause.message
  | argument cause => cause.message
  | unknownCategory name => "unknown margin category: " ++ name
  | unknownLevel name => "unknown log level: " ++ name
  | missingFile path => "Cannot open config file: " ++ path
  | line number cause => "config line " ++ Numeral.write number ++ ": " ++ cause.message
  | json cause => cause.message

end SpotMargin
