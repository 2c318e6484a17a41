/-
VirtualMarket.Market.Pool — a market with its curve and tracking policy.

A pool is built from a deposit or from a state, quotes trades and executes
them.  Here an execution gives another pool, and gives one only if it succeeds;
how it is done on a pool that is kept in place is in Market.Program.
-/
import VirtualMarket.Market.Peg
import VirtualMarket.Market.Quote

namespace VirtualMarket

structure Pool where
  curve : Curve
  tracking : Tracking
  state : State

structure Execution where
  /-- The quote paid by a purchase of base, or received for a sale. -/
  amount : Float
  fee : Float
  price : Float
  markPrice : Float
  peg : PegMove

namespace Pool

/-! ## Building -/

def ofState (curve : Curve) (tracking : Tracking) (state : State) : Outcome Pool := do
  curve.validate
  tracking.validate
  state.validate
  .ok ⟨curve, tracking, state⟩

/-- The state after a first deposit: virtual price and profit are one, and the
supply of liquidity tokens equals the value of the deposit. -/
def depositState (tracking : Tracking) (reserves : Reserves) (d priceScale : Float)
    (now : Int) : State where
  reserves := reserves
  invariant := d
  priceScale := priceScale
  priceOracle := priceScale
  lastPrice := priceScale
  lastUpdate := now
  halfLife := tracking.halfLife
  totalSupply := geometricMean (d / 2) (d / (2 * priceScale))
  profit := 1
  virtualPrice := 1
  minimumStep := tracking.minimumStep
  profitCushion := tracking.profitCushion
  latch := .settled

/-- A pool seeded with a first deposit. -/
def bootstrap (curve : Curve) (tracking : Tracking) (reserves : Reserves) (priceScale : Float)
    (now : Int) : Outcome Pool := do
  curve.validate
  let d ← curve.invariant (reserves.scaled priceScale)
  ofState curve tracking (depositState tracking reserves d priceScale now)

/-! ## Reading -/

def markPrice (p : Pool) : Float :=
  p.curve.markPrice p.state.scaledReserves p.state.invariant p.state.priceScale

/-- The quote received for selling `size` base. -/
def quoteSale (p : Pool) (size : Float) : Outcome Quote :=
  p.curve.quoteOutput 1 0 size p.state.reserves p.state.invariant p.state.priceScale

/-- The quote to pay for buying `size` base. -/
def quotePurchase (p : Pool) (size : Float) : Outcome Quote :=
  p.curve.quoteInput 0 1 size p.state.reserves p.state.invariant p.state.priceScale

/-- The time of a trade that gives none. -/
def nextTime (p : Pool) : Int :=
  wrap64 (p.state.lastUpdate + p.tracking.tradeInterval)

/-! ## Trading -/

/-- Completes a trade whose reserves are already those of `traded`. -/
def commit (p : Pool) (traded : State) (quote : Quote) (price : Float) (now : Int) :
    Outcome (Execution × Pool) := do
  let (peg, state) ← p.curve.update traded (some price) none now
  let after := { p with state := state }
  .ok (⟨quote.amount, quote.fee, price, after.markPrice, peg⟩, after)

/-- Sells `size` base for at least `least` quote. -/
def sellAt (p : Pool) (size least : Float) (now : Int) : Outcome (Execution × Pool) := do
  let quote ← p.quoteSale size
  if quote.amount < least then .error (.slippageExceeded quote.amount least)
  else
    let reserves := (p.state.reserves.deposit .base size).withdraw .quote quote.amount
    p.commit { p.state with reserves := reserves } quote (quote.amount / size) now

/-- Buys `size` base for at most `most` quote. -/
def buyAt (p : Pool) (size most : Float) (now : Int) : Outcome (Execution × Pool) := do
  let quote ← p.quotePurchase size
  if quote.amount > most then .error (.slippageExceeded quote.amount most)
  else
    let reserves := (p.state.reserves.deposit .quote quote.amount).withdraw .base size
    p.commit { p.state with reserves := reserves } quote (quote.amount / size) now

/-- Sells one trade interval after the last update. -/
def sell (p : Pool) (size least : Float) : Outcome (Execution × Pool) :=
  p.sellAt size least p.nextTime

/-- Buys one trade interval after the last update. -/
def buy (p : Pool) (size most : Float) : Outcome (Execution × Pool) :=
  p.buyAt size most p.nextTime

/-- Updates the pool without a trade. -/
def update (p : Pool) (tradePrice supplied : Option Float) (now : Int) :
    Outcome (PegMove × Pool) := do
  let (peg, state) ← p.curve.update p.state tradePrice supplied now
  .ok (peg, { p with state := state })

end Pool

end VirtualMarket
