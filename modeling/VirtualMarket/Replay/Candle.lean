/-
VirtualMarket.Replay.Candle — bars of market history.

A bar gives a short path of prices that a replay trades along.  A history is
well formed when every price is positive and finite, no low is above its high,
and times strictly increase.
-/
namespace VirtualMarket

structure Candle where
  /-- The time at which the bar begins, in seconds. -/
  time : Int
  openPrice : Float
  highPrice : Float
  lowPrice : Float
  closePrice : Float

/-- The prices that a bar walks through.  A rising bar is taken to visit its
low before its high, any other its high before its low. -/
def Candle.targets (c : Candle) (closeOnly : Bool) : List Float :=
  if closeOnly then [c.closePrice]
  else if c.closePrice > c.openPrice then
    [c.openPrice, c.lowPrice, c.highPrice, c.closePrice]
  else [c.openPrice, c.highPrice, c.lowPrice, c.closePrice]

/-- The rules that a bar of a history can break. -/
inductive CandleRule where
  | positivePrices
  | lowBelowHigh
  | timeOrder
deriving Repr, DecidableEq

/-- The first bar of a history that breaks a rule. -/
structure CandleFlaw where
  index : Nat
  time : Int
  rule : CandleRule
deriving Repr, DecidableEq

/-- The wording of a flaw. -/
def CandleFlaw.message (f : CandleFlaw) : String :=
  "candle " ++ toString f.index ++ " at " ++ toString f.time ++
    match f.rule with
    | .positivePrices => " has a non-positive price"
    | .lowBelowHigh => " has low above high"
    | .timeOrder => " is out of order"

/-- Whether a price can be traded to. -/
def pricePositive (x : Float) : Bool :=
  x > 0 && x.isFinite

/-- The first rule that a bar breaks, given the time of the bar before it. -/
def Candle.brokenRule? (c : Candle) (previous : Option Int) : Option CandleRule :=
  if !(pricePositive c.openPrice && pricePositive c.highPrice && pricePositive c.lowPrice
      && pricePositive c.closePrice) then some .positivePrices
  else if c.lowPrice > c.highPrice then some .lowBelowHigh
  else if previous.any (fun time => c.time ≤ time) then some .timeOrder
  else none

/-- Tests a history from bar `index` on. -/
def validateCandlesFrom (index : Nat) (previous : Option Int) :
    List Candle → Except CandleFlaw Unit
  | [] => .ok ()
  | c :: rest =>
    match c.brokenRule? previous with
    | some rule => .error ⟨index, c.time, rule⟩
    | none => validateCandlesFrom (index + 1) (some c.time) rest

/-- Tests a history and blames the first bar that breaks a rule. -/
def validateCandles (candles : List Candle) : Except CandleFlaw Unit :=
  validateCandlesFrom 0 none candles

end VirtualMarket
