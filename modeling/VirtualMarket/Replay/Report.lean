/-
VirtualMarket.Replay.Report — what a replay tells.

A report has one row for every bar that was replayed to its end, and a summary
that counts them and names the fault that stopped the replay, if one did.  Its
written form is a JSON object over several lines.
-/
import VirtualMarket.Decimal.Layout
import VirtualMarket.Json.Printer

namespace VirtualMarket

structure ReportRow where
  time : Int
  closePrice : Float
  markPrice : Float
  depth : Float
  /-- The quote traded during the bar. -/
  volume : Float
  /-- The mean slippage of the trades of the bar, in percent. -/
  slippage : Float
  position : Float
  openNotional : Float
  unrealized : Float
  /-- The yearly return of the tracked maker, in percent. -/
  yearlyReturn : Float

structure ReportSummary where
  candles : Nat := 0
  trades : Nat := 0
  volume : Float := 0
  /-- The mean slippage of all trades, in percent. -/
  meanSlippage : Float := 0
  /-- The words of the fault that stopped the replay. -/
  error : Option String := none

structure Report where
  rows : List ReportRow := []
  summary : ReportSummary := {}

/-! ## Written form -/

namespace Report

/-- Numbers of a report have the fewest digits that read back, a half going to
the even neighbour.  A whole number keeps `.0`, and an exponent is written
where the leading digit stands below `10 ^ -5` or from `10 ^ 16` on. -/
def numberLayout : Decimal.Layout where
  tie := .toEven
  wholeFraction := true
  positional := some (-5, 16)
  nan := "null"
  positiveInfinity := "null"
  negativeInfinity := "null"

/-- A number of a report; what is not finite is written as null. -/
def number (x : Float) : Json.Value :=
  if x.isFinite then .number (numberLayout.render x) else .null

def whole (n : Int) : Json.Value :=
  .number (toString n)

def rowJson (row : ReportRow) : Json.Value :=
  .object [("time", whole row.time), ("close_price", number row.closePrice),
    ("mark_price", number row.markPrice), ("depth", number row.depth),
    ("volume", number row.volume), ("slippage", number row.slippage),
    ("position", number row.position), ("open_notional", number row.openNotional),
    ("unrealized_pnl", number row.unrealized), ("apr", number row.yearlyReturn)]

def summaryJson (s : ReportSummary) : Json.Value :=
  .object [("candles", whole s.candles), ("trades", whole s.trades),
    ("volume", number s.volume), ("avg_slippage", number s.meanSlippage),
    ("error", match s.error with
      | some text => .string text
      | none => .null)]

def toJson (r : Report) : Json.Value :=
  .object [("rows", .array (r.rows.map rowJson)), ("summary", summaryJson r.summary)]

def text (r : Report) : String :=
  r.toJson.pretty

end Report

end VirtualMarket
