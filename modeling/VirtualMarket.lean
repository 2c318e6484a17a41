import VirtualMarket.Main
import VirtualMarket.Settings.Printer
import VirtualMarket.Proofs.Market.Execution
import VirtualMarket.Proofs.Market.Floor
import VirtualMarket.Proofs.Market.Latch
import VirtualMarket.Proofs.Market.Validity
import VirtualMarket.Proofs.Curve.Faults
import VirtualMarket.Proofs.Market.Faults
import VirtualMarket.Proofs.Market.Loss
import VirtualMarket.Proofs.Market.Journal
import VirtualMarket.Proofs.Market.Clock
import VirtualMarket.Proofs.Market.Ledger
import VirtualMarket.Proofs.Double.Sum
import VirtualMarket.Proofs.Market.Rest
import VirtualMarket.Proofs.Sizing.Search
import VirtualMarket.Proofs.Replay.Bars
import VirtualMarket.Proofs.Replay.Report
import VirtualMarket.Proofs.Replay.Truncation
import VirtualMarket.Proofs.Replay.Landing
import VirtualMarket.Proofs.Replay.Faults
import VirtualMarket.Proofs.Session.Faults
import VirtualMarket.Proofs.Double.Numeral
import VirtualMarket.Proofs.Decimal.Integer
import VirtualMarket.Proofs.Snapshot.FixedPoint
import VirtualMarket.Proofs.Snapshot.Pool
import VirtualMarket.Proofs.Settings.Layers
import VirtualMarket.Proofs.Decimal.Shortest
import VirtualMarket.Proofs.Decimal.Layout
import VirtualMarket.Proofs.Toml.Scalar
import VirtualMarket.Proofs.Toml.Lines
import VirtualMarket.Proofs.Toml.Document
import VirtualMarket.Proofs.Settings.Printer
import VirtualMarket.Proofs.Sizing.FirstLot
import VirtualMarket.Proofs.Market.Quote
import VirtualMarket.Proofs.Account.Maker
import VirtualMarket.Proofs.Market.Tracking
import VirtualMarket.Proofs.Account.Share
import VirtualMarket.Proofs.Account.Taker
import VirtualMarket.Proofs.Session.Numbers
import VirtualMarket.Proofs.Snapshot.Amount
import VirtualMarket.Proofs.Market.Fees
import VirtualMarket.Proofs.Curve.Budget
import VirtualMarket.Proofs.Curve.Symmetry
import VirtualMarket.Proofs.Replay.Candle
import VirtualMarket.Proofs.Curve.Answers
