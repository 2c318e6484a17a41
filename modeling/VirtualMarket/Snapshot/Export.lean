/-
VirtualMarket.Snapshot.Export — snapshots in JSON texts.

An exported snapshot is an object, or an array of its values in order.
-/
import VirtualMarket.Replay.History
import VirtualMarket.Snapshot.Raw

namespace VirtualMarket.RawSnapshot

def fieldNames : List String :=
  ["balances", "price_scale", "price_oracle", "last_prices", "ma_half_time", "total_supply",
    "xcp_profit", "virtual_price", "adjustment_step", "allowed_extra_profit", "not_adjusted", "D",
    "last_prices_timestamp"]

/-- The two balances, quote first. -/
def readBalances? (v : Json.Value) : Option (String × String) := do
  match ← v.array? with
  | [quote, base] => some (← quote.string?, ← base.string?)
  | _ => none

/-- A snapshot from its written form. -/
def ofJson? (v : Json.Value) : Option RawSnapshot := do
  match ← v.record? fieldNames with
  | [balances, priceScale, priceOracle, lastPrices, halfLife, totalSupply, profit, virtualPrice,
      minimumStep, profitCushion, notAdjusted, invariant, lastUpdate] =>
    let (quote, base) ← readBalances? balances
    some {
      quoteBalance := quote
      baseBalance := base
      priceScale := ← priceScale.string?
      priceOracle := ← priceOracle.string?
      lastPrices := ← lastPrices.string?
      halfLife := ← halfLife.string?
      totalSupply := ← totalSupply.string?
      profit := ← profit.string?
      virtualPrice := ← virtualPrice.string?
      minimumStep := ← minimumStep.string?
      profitCushion := ← profitCushion.string?
      notAdjusted := ← notAdjusted.boolean?
      invariant := ← invariant.string?
      lastUpdate := ← readTime? lastUpdate }
  | _ => none

/-- A snapshot from its text. -/
def read? (text : String) : Option RawSnapshot := do
  ofJson? (← Json.parse? text)

end VirtualMarket.RawSnapshot
