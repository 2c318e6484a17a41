/-
VirtualMarket.Replay.History — market history in JSON texts.

A history is an array of bars.  A bar is an object, or an array of its five
values in order.
-/
import VirtualMarket.Json.Parser
import VirtualMarket.Replay.Candle

namespace VirtualMarket

/-- A time: a whole number of 64 bits. -/
def readTime? : Json.Value → Option Int
  | .number literal => do
    let n ← (← Json.Numeral.ofLiteral? literal).integer?
    if Decimal.signed64.contains n then some n else none
  | _ => none

def readPrice? : Json.Value → Option Float
  | .number literal => do (← Json.Numeral.ofLiteral? literal).scaled?
  | _ => none

/-- The fields of a written bar, in order. -/
def Candle.fieldNames : List String :=
  ["time", "open", "high", "low", "close"]

def Candle.ofJson? (v : Json.Value) : Option Candle := do
  match ← v.record? Candle.fieldNames with
  | [time, openPrice, highPrice, lowPrice, closePrice] =>
    some {
      time := ← readTime? time
      openPrice := ← readPrice? openPrice
      highPrice := ← readPrice? highPrice
      lowPrice := ← readPrice? lowPrice
      closePrice := ← readPrice? closePrice }
  | _ => none

def readHistory? (text : String) : Option (List Candle) := do
  let items ← (← Json.parse? text).array?
  items.mapM Candle.ofJson?

end VirtualMarket
