/-
VirtualMarket.Account.Taker — the value of a trader's position.

A position is valued by closing it: a long is sold into the pool, a short
bought back from it.
-/
import VirtualMarket.Market.Quote

namespace VirtualMarket

/-- A signed base position, long if positive, and the quote it was opened
for. -/
structure Position where
  size : Float
  openNotional : Float

structure Closing where
  /-- The quote that changes hands. -/
  notional : Float := 0
  unrealized : Float := 0

/-- The value of a position against reserves with invariant `d`.  A market
without a usable invariant values everything at zero, and so does a flat
position.  A short larger than the base reserve cannot be closed. -/
def Curve.closePosition (c : Curve) (p : Position) (reserves : Reserves) (d priceScale : Float) :
    Outcome Closing :=
  if !(d ≥ Band.invariant.low) then .ok {}
  else if p.size > 0 then do
    let quote ← c.quoteOutput 1 0 p.size reserves d priceScale
    .ok ⟨quote.amount, quote.amount - p.openNotional⟩
  else if p.size < 0 then
    if -p.size > reserves.base then .error (.insufficientLiquidity (-p.size) reserves.base)
    else do
      let quote ← c.quoteInput 0 1 (-p.size) reserves d priceScale
      .ok ⟨quote.amount, p.openNotional - quote.amount⟩
  else .ok {}

end VirtualMarket
