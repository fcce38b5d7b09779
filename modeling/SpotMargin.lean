import SpotMargin.Json.Codec
import SpotMargin.Proofs.Balance.Rounding
import SpotMargin.Proofs.Config.Acceptance
import SpotMargin.Proofs.Config.Agreement
import SpotMargin.Proofs.Config.Layout
import SpotMargin.Proofs.Config.Quotation
import SpotMargin.Proofs.Json.Decoding
import SpotMargin.Proofs.Json.Member
import SpotMargin.Proofs.Json.RoundTrip
import SpotMargin.Proofs.Numeral.Canonical
import SpotMargin.Proofs.Numeral.Grammar
import SpotMargin.Proofs.Scenario.Asks
import SpotMargin.Proofs.Scenario.Balances
import SpotMargin.Proofs.Scenario.Categories
import SpotMargin.Proofs.Scenario.Contract
import SpotMargin.Proofs.Scenario.Denomination
import SpotMargin.Proofs.Scenario.Failures
import SpotMargin.Proofs.Scenario.Orders
import SpotMargin.Proofs.Scenario.Prices
import SpotMargin.Proofs.Scenario.Reports
import SpotMargin.Proofs.Scenario.Selection
import SpotMargin.Proofs.Session.Atomic
import SpotMargin.Proofs.Session.Logging
import SpotMargin.Proofs.Session.Store
import SpotMargin.Proofs.Unbounded.Scenario
import SpotMargin.Proofs.Value
import SpotMargin.Proofs.Weight.Derating
import SpotMargin.Proofs.Weight.Size
import SpotMargin.Session
