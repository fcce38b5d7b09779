import SpotMargin.Log.Basic
import SpotMargin.Markets

/-!
# Configurations

A configuration holds a table of markets, the margin category to value them in, and the name of a
log level.  The name is kept as it was given, and is looked up only when it is used.
-/

namespace SpotMargin

/-- General settings and a table of markets. -/
structure Config where
  /-- Name of the log level; it need not be one that exists. -/
  logLevel : String := "warn"
  category : MarginCategory := .initial
  markets : Markets := .empty
  deriving DecidableEq, Inhabited

namespace Config

def market? (config : Config) (name : String) : Option Market :=
  config.markets.find? name

/-- A market with the given number.  When several have it, the order of the table decides. -/
def marketByIndex? (config : Config) (index : UInt16) : Option Market :=
  config.markets.findIndex? index

/-- The configuration with a market under a name, which becomes the name of the market too.  The
market need not be valid. -/
def withMarket (config : Config) (name : String) (market : Market) : Config :=
  { config with markets := config.markets.insert name { market with name } }

/-- The log level that the configuration names. -/
def level (config : Config) : Except Error Log.Level :=
  Log.Level.ofName config.logLevel

@[simp]
theorem market?_withMarket (config : Config) (name other : String) (market : Market) :
    (config.withMarket name market).market? other =
      if other = name then some { market with name } else config.market? other :=
  Markets.find?_insert _ _ _ _

end Config
end SpotMargin
