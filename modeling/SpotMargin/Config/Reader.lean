import SpotMargin.Config.Basic
import SpotMargin.Config.Line
import SpotMargin.Log.Logged
import SpotMargin.Numeral.Reader

/-!
# Reading configuration texts

A text is read line by line.  A header opens a section, which the assignments that follow refer to;
sections may be opened again.  The first line without a meaning fails the whole text, and so does,
when every line has one, a market that is not valid.
-/

namespace SpotMargin

namespace Config

def readFixed (value : String) : Except LineError Fixed :=
  match Numeral.read value with
  | .ok result => .ok result
  | .error cause => .error (.numeral cause)

/-- The natural number, not above `limit`, that a value names. -/
def readNat (limit : Nat) (value : String) : Except LineError Nat :=
  match readFixed value with
  | .ok result =>
      if 0 ≤ result.toInt ∧ result.toInt ≤ limit then
        .ok result.toInt.toNat
      else
        .error (.outOfRange value)
  | .error cause => .error cause

end Config

/-- The market with the parameter under a key changed. -/
def Market.assign (market : Market) (key value : String) : Except LineError Market :=
  if key = "market_index" then do
    return { market with index := (← Config.readNat 65535 value).toUInt16 }
  else if key = "decimals" then do
    return { market with
      decimals := (← Config.readNat Precision.balanceDecimals.toNat value).toUInt32 }
  else
    match Market.Field.ofKey? key with
    | some field => return market.set field (← Config.readFixed value)
    | none => .error (.unknownMarketKey key)

/-- What has been read so far. -/
structure Config.Reader where
  config : Config := {}
  /-- The section that assignments refer to; none before the first header. -/
  current : Option Config.Section := none
  deriving DecidableEq, Inhabited

namespace Config.Reader

/-- Opens a section.  The section of a market puts the market into the table. -/
def openSection (reader : Reader) (opened : Section) : Reader :=
  match opened with
  | .general => { reader with current := some opened }
  | .market name =>
      { config := { reader.config with
          markets := reader.config.markets.update name fun market => { market with name } }
        current := some opened }

/-- Makes an assignment on the line with the given number.  A margin category that does not exist is
reported without the line. -/
def assign (reader : Reader) (number : Nat) (key value : String) : Except Error Reader :=
  let failure (cause : LineError) : Except Error Reader := .error (.line number cause)
  match reader.current with
  | none => failure (.strayKey key)
  | some .general =>
      if key = "log_level" then
        .ok { reader with config.logLevel := value }
      else if key = "margin_category" then
        match MarginCategory.ofName value with
        | .ok category => .ok { reader with config.category := category }
        | .error error => .error error
      else
        failure (.unknownGeneralKey key)
  | some (.market name) =>
      match ((reader.config.markets.find? name).getD {}).assign key value with
      | .ok market =>
          .ok { reader with config.markets := reader.config.markets.insert name market }
      | .error cause => failure cause

def readLine (reader : Reader) (number : Nat) (chars : List Char) : Except Error Reader :=
  let failure (cause : LineError) : Except Error Reader := .error (.line number cause)
  match Line.ofChars chars with
  | .error cause => failure cause
  | .ok .blank => .ok reader
  | .ok (.header title) =>
      match Section.ofTitle title with
      | .ok opened => .ok (reader.openSection opened)
      | .error cause => failure cause
  | .ok (.assignment key value) => reader.assign number key value

/-- Reads lines in order, where the first of them has the given number. -/
def readLines (reader : Reader) (number : Nat) : List (List Char) → Except Error Reader
  | [] => .ok reader
  | line :: rest => do (← reader.readLine number line).readLines (number + 1) rest

end Config.Reader

namespace Config

/-- The configuration that a text describes. -/
def ofText (text : String) : Except Error Config := do
  let reader ← Reader.readLines {} 1 (lines text.toList)
  reader.config.markets.check
  return reader.config

/-- The configuration that the file at a path describes, given the contents of the file if it could
be opened. -/
def ofFile (path : String) (contents? : Option String) : Except Error Config :=
  match contents? with
  | some contents => ofText contents
  | none => .error (.missingFile path)

/-- Reports a market that passes its check. -/
def loadMarket (name : String) (market : Market) : Logged Unit := do
  market.check
  Logged.report (.marketLoaded name market.index market.decimals)

theorem result_loadMarket (name : String) (market : Market) :
    (loadMarket name market).result = market.check := by
  rw [loadMarket, Logged.result_bind, Logged.result_lift]
  cases market.check <;> rfl

/-- Loads the configuration that a text describes.  When a market is not valid, the markets before
it in the table have been reported. -/
def load (text : String) : Logged Config := do
  let reader ← Reader.readLines {} 1 (lines text.toList)
  reader.config.markets.entries.forM fun entry => loadMarket entry.1 entry.2
  return reader.config

theorem result_load (text : String) : (load text).result = ofText text := by
  simp only [load, ofText, Logged.result_bind, Logged.result_lift, Logged.result_forM,
    result_loadMarket, Logged.result_pure]
  rfl

end Config
end SpotMargin
