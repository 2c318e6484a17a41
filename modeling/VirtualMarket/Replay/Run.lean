/-
VirtualMarket.Replay.Run — market history played against a pool.

For every price on a bar's path a trade is sized and executed; then the
tracked maker is valued and the depth measured.  The first fault ends the
replay.  The rows before it are kept, and so are the trades made before it.
-/
import VirtualMarket.Market.Operation
import VirtualMarket.Replay.Candle
import VirtualMarket.Replay.Report

namespace VirtualMarket

structure ReplayPlan where
  /-- Trade only to the close of each bar. -/
  closeOnly : Bool := false
  /-- The fraction of the pool that the tracked maker holds. -/
  makerShare : Float := 0.002
  /-- The relative move by which depth is measured. -/
  depthBand : Float := 0.005
  /-- The bars in a day, to make returns yearly. -/
  barsPerDay : Float := 1440

/-- A replay that is ready to run. -/
structure Replay where
  pool : Pool
  basis : Basis
  /-- The value of the maker's basis at the start, in quote. -/
  liquidity : Float
  sizing : Sizing
  plan : ReplayPlan

namespace Replay

/-! ## Setting up -/

/-- A replay that tracks a given maker. -/
def withMaker (pool : Pool) (basis : Basis) (sizing : Sizing) (plan : ReplayPlan) : Replay :=
  ⟨pool, basis, basis.notional pool.state.priceScale, sizing, plan⟩

/-- A replay that tracks a maker who owns the planned share of the pool. -/
def new (pool : Pool) (sizing : Sizing) (plan : ReplayPlan) : Replay :=
  withMaker pool (Basis.proRata pool.state plan.makerShare) sizing plan

/-! ## One bar -/

/-- The trades of a bar so far, and the pool they leave. -/
structure Traded where
  pool : Pool
  trades : Nat := 0
  volume : Float := 0
  /-- The sum of the slippage of the trades, in percent. -/
  slippage : Float := 0

/-- Days in a year, in percent. -/
def percentDays : Float := 36500

/-- Executes a signed size, without a bound on the amount. -/
def execute (pool : Pool) (size : Float) : Outcome (Execution × Pool) :=
  if size > 0 then pool.buy size Decimal.largestFinite else pool.sell size.abs 0

def tradeTo (sizing : Sizing) (t : Traded) (target : Float) : Outcome Traded := do
  let before := t.pool.markPrice
  let size ← sizing.sizeToTarget t.pool.venue target
  if size == 0 then .ok t
  else
    let (execution, after) ← execute t.pool size
    .ok {
      pool := after
      trades := t.trades + 1
      volume := t.volume + execution.amount
      slippage := t.slippage + (execution.price - before).abs * 100 / before }

/-- Trades along a path of target prices up to the first fault. -/
def tradeAlong (sizing : Sizing) : List Float → Traded → Traded × Option Fault
  | [], t => (t, none)
  | target :: rest, t =>
    match tradeTo sizing t target with
    | .error fault => (t, some fault)
    | .ok next => tradeAlong sizing rest next

/-- The row of a bar whose trades are done.  `index` counts the bars from
zero. -/
def rowOf (r : Replay) (index : Nat) (c : Candle) (t : Traded) : Outcome ReportRow := do
  let maker ← t.pool.curve.makerValue t.pool.state r.basis.tokens r.basis
  let depth ← r.sizing.depth t.pool.venue r.plan.depthBand
  .ok {
    time := c.time
    closePrice := c.closePrice
    markPrice := t.pool.markPrice
    depth := depth
    volume := t.volume
    slippage := if t.trades > 0 then t.slippage / Float.ofNat t.trades else 0
    position := maker.position.size
    openNotional := maker.position.openNotional
    unrealized := maker.unrealized
    yearlyReturn := maker.unrealized * r.plan.barsPerDay * percentDays
      / (r.liquidity * Float.ofNat (index + 1)) }

/-! ## All bars -/

/-- The rows and totals of the bars replayed so far. -/
structure Tally where
  pool : Pool
  /-- The rows, newest first. -/
  rows : List ReportRow := []
  trades : Nat := 0
  volume : Float := 0
  slippage : Float := 0

/-- Replays bars up to the first fault.  `index` counts the bars before. -/
def replayFrom (r : Replay) (index : Nat) : List Candle → Tally → Tally × Option Fault
  | [], tally => (tally, none)
  | c :: rest, tally =>
    match tradeAlong r.sizing (c.targets r.plan.closeOnly) { pool := tally.pool } with
    | (t, some fault) => ({ tally with pool := t.pool }, some fault)
    | (t, none) =>
      match r.rowOf index c t with
      | .error fault => ({ tally with pool := t.pool }, some fault)
      | .ok row =>
        r.replayFrom (index + 1) rest {
          pool := t.pool
          rows := row :: tally.rows
          trades := tally.trades + t.trades
          volume := tally.volume + row.volume
          slippage := tally.slippage + t.slippage }

def Tally.report (t : Tally) (fault : Option Fault) : Report where
  rows := t.rows.reverse
  summary := {
    candles := t.rows.length
    trades := t.trades
    volume := t.volume
    meanSlippage := if t.trades > 0 then t.slippage / Float.ofNat t.trades else 0
    error := fault.map Fault.message }

/-- Replays a history: the report, and the pool that is left. -/
def run (r : Replay) (candles : List Candle) : Report × Pool :=
  let (tally, fault) := r.replayFrom 0 candles { pool := r.pool }
  (tally.report fault, tally.pool)

end Replay

end VirtualMarket
