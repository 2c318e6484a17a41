/-
VirtualMarket.Snapshot.Raw — a market as a ledger exports it.

All amounts are texts of fixed-point integers.  The quote balance has six
decimals, the base balance and every ratio eighteen, and the half-life is in
whole seconds.
-/
import VirtualMarket.Market.Pool
import VirtualMarket.Snapshot.FixedPoint

namespace VirtualMarket

/-- The exported fields of a market. -/
structure RawSnapshot where
  quoteBalance : String
  baseBalance : String
  priceScale : String
  priceOracle : String
  lastPrices : String
  halfLife : String
  totalSupply : String
  profit : String
  virtualPrice : String
  minimumStep : String
  profitCushion : String
  /-- Whether the peg is on its way. -/
  notAdjusted : Bool
  invariant : String
  lastUpdate : Int

namespace RawSnapshot

def quoteDecimals : Nat := 6

def baseDecimals : Nat := 18

/-- A ratio or an amount of eighteen decimals. -/
def ratio (field raw : String) : Outcome Float :=
  FixedPoint.decode field raw baseDecimals

/-- The state that a snapshot stands for; the first unusable field is
blamed. -/
def decode (raw : RawSnapshot) : Outcome State := do
  let quote ← FixedPoint.decode "balances[0]" raw.quoteBalance quoteDecimals
  let base ← ratio "balances[1]" raw.baseBalance
  let invariant ← ratio "D" raw.invariant
  let priceScale ← ratio "price_scale" raw.priceScale
  let priceOracle ← ratio "price_oracle" raw.priceOracle
  let lastPrice ← ratio "last_prices" raw.lastPrices
  let halfLife ← FixedPoint.decode "ma_half_time" raw.halfLife 0
  let totalSupply ← ratio "total_supply" raw.totalSupply
  let profit ← ratio "xcp_profit" raw.profit
  let virtualPrice ← ratio "virtual_price" raw.virtualPrice
  let minimumStep ← ratio "adjustment_step" raw.minimumStep
  let profitCushion ← ratio "allowed_extra_profit" raw.profitCushion
  .ok {
    reserves := ⟨quote, base⟩
    invariant := invariant
    priceScale := priceScale
    priceOracle := priceOracle
    lastPrice := lastPrice
    lastUpdate := raw.lastUpdate
    halfLife := halfLife
    totalSupply := totalSupply
    profit := profit
    virtualPrice := virtualPrice
    minimumStep := minimumStep
    profitCushion := profitCushion
    latch := if raw.notAdjusted then .pending else .settled }

end RawSnapshot

def Pool.ofSnapshot (curve : Curve) (tracking : Tracking) (raw : RawSnapshot) : Outcome Pool := do
  let state ← raw.decode
  Pool.ofState curve tracking state

end VirtualMarket
