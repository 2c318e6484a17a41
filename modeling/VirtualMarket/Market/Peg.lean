/-
VirtualMarket.Market.Peg — the update that follows every trade.

An update advances the moving average, finds the invariant, notes the last
price, refreshes the profit counters and then decides about the peg.  The peg
moves toward the oracle only if the market keeps more than half of its profit
afterwards.  Each stage is a function of its own; `Curve.update` joins them
and gives a new state only if all of them succeed.
-/
import VirtualMarket.Market.State
import VirtualMarket.Curve.Invariant
import VirtualMarket.Curve.Reserve

namespace VirtualMarket

/-! ## Tracking policy -/

/-- How a market tracks prices. -/
structure Tracking where
  /-- The half-life of the moving average, in seconds. -/
  halfLife : Float := 600
  minimumStep : Float := 0.000146
  profitCushion : Float := 0.000002
  /-- The seconds that pass with every trade that gives no time. -/
  tradeInterval : Int := 3

/-- Tests a tracking policy when a market is set up. -/
def Tracking.validate (t : Tracking) : Outcome Unit :=
  if !(t.halfLife > 0) then .error (.invalidParameter (.halfLife t.halfLife))
  else if t.minimumStep < 0 || t.profitCushion < 0 then
    .error (.invalidParameter .negativeTracking)
  else if t.tradeInterval < 0 then .error (.invalidParameter (.tradeInterval t.tradeInterval))
  else .ok ()

/-! ## Stages of an update -/

/-- What an update did to the peg. -/
inductive PegMove where
  | unchanged
  | moved (old new : Float)
  /-- A move was tried and would have cost too much profit. -/
  | discarded (candidate : Float)

def PegMove.isMoved : PegMove → Bool
  | .moved .. => true
  | _ => false

/-- One, halved a number of times. -/
def halvings : Nat → Float
  | 0 => 1
  | n + 1 => halvings n / 2

/-- A half to a power.  Whole powers are halvings, of which 1075 leave nothing;
the others are approximated by the library. -/
def halfToThe (power : Float) : Float :=
  let whole := (Decimal.magnitude power).nearestWhole
  if Float.ofNat whole == power then halvings (min whole 1075) else Float.pow 0.5 power

/-- The value of one liquidity token of a market with invariant `d`. -/
def virtualPriceAt (d priceScale totalSupply : Float) : Float :=
  geometricMean (d / 2) (d / (2 * priceScale)) / totalSupply

/-- The moving average, advanced to a later time.  The price of the trade that
causes the update has no part in it. -/
def State.advanceOracle (s : State) (now : Int) : State :=
  if s.lastUpdate < now then
    let alpha := halfToThe (Float.ofInt (wrap64 (now - s.lastUpdate)) / s.halfLife)
    { s with
      priceOracle := s.lastPrice * (1 - alpha) + s.priceOracle * alpha
      lastUpdate := now }
  else s

namespace Curve

/-- The invariant before any move of the peg: as supplied, or solved. -/
def unadjustedInvariant (c : Curve) (x : Reserves) : Option Float → Outcome Float
  | some d => do
    guardBand .invariant .invariant d
    .ok d
  | none => c.invariant x

/-- The marginal price seen by a tiny purchase against `d`. -/
def probePrice (c : Curve) (x : Reserves) (d priceScale : Float) : Outcome Float := do
  let paid := x.quote / 1e6
  let left ← c.reserve { x with quote := x.quote + paid } d .base
  .ok (priceScale * paid / (x.base - left))

/-- The price that the next update will take in: the price of the trade if it
is positive, else that of a probe. -/
def lastPriceAfter (c : Curve) (x : Reserves) (d priceScale : Float) :
    Option Float → Outcome Float
  | some price => if price > 0 then .ok price else c.probePrice x d priceScale
  | none => c.probePrice x d priceScale

end Curve

/-- The virtual price and the profit counter at invariant `d`.  A market whose
virtual price was not positive starts over at one; a fall of the virtual price
is a loss. -/
def State.profitAt (s : State) (d : Float) : Outcome (Float × Float) :=
  if s.virtualPrice > 0 then
    let current := virtualPriceAt d s.priceScale s.totalSupply
    if current < s.virtualPrice then .error (.lossDetected s.virtualPrice current)
    else .ok (current, s.profit * current / s.virtualPrice)
  else .ok (1, 1)

def State.distance (s : State) : Float :=
  (s.priceOracle / s.priceScale - 1).abs

/-- The relative step of a move over a given distance: a tenth of it, but no
less than the minimum. -/
def State.stepFor (s : State) (distance : Float) : Float :=
  Decimal.larger s.minimumStep (distance / 10)

/-- Whether a move is tried: the oracle is farther away than a step, and the
latch is set or the profit exceeds the cushion. -/
def State.wantsMove (s : State) (virtualPrice profit : Float) : Bool :=
  let distance := s.distance
  distance > s.stepFor distance && s.virtualPrice > 0
    && (s.latch == .pending || virtualPrice * 2 - 1 > profit + 2 * s.profitCushion)

/-- The peg one step closer to the oracle. -/
def State.candidatePeg (s : State) : Float :=
  let distance := s.distance
  let step := s.stepFor distance
  (s.priceScale * (distance - step) + step * s.priceOracle) / distance

/-- Closes an update without a move. -/
def State.settle (s : State) (d virtualPrice profit lastPrice : Float) : State :=
  { s with
    invariant := d
    virtualPrice := virtualPrice
    profit := profit
    lastPrice := lastPrice
    latch := .settled }

/-- Closes an update with the peg at `peg`. -/
def State.move (s : State) (peg d virtualPrice profit lastPrice : Float) : State :=
  { s with
    priceScale := peg
    invariant := d
    virtualPrice := virtualPrice
    profit := profit
    lastPrice := lastPrice
    latch := .pending }

/-- Whether more than half of the profit is left at a candidate's virtual
price. -/
def keepsProfit (candidate profit : Float) : Bool :=
  candidate > 1 && 2 * candidate - 1 > profit

/-- Tries to move the peg one step.  `s` is the state with its moving average
advanced, and the other arguments are what the earlier stages found. -/
def Curve.tryMove (c : Curve) (s : State) (d virtualPrice profit lastPrice : Float) :
    Outcome (PegMove × State) := do
  let peg := s.candidatePeg
  let x := s.scaledReserves
  let moved ← c.invariant { x with base := x.base * peg / s.priceScale }
  let candidate := virtualPriceAt moved peg s.totalSupply
  if keepsProfit candidate profit then
    .ok (.moved s.priceScale peg, s.move peg moved candidate profit lastPrice)
  else .ok (.discarded peg, s.settle d virtualPrice profit lastPrice)

/-! ## The update -/

/-- Brings a state up to date after a change of reserves or of time.
`tradePrice` is the price of the trade that caused the update, `supplied` an
invariant known from elsewhere. -/
def Curve.update (c : Curve) (s : State) (tradePrice supplied : Option Float) (now : Int) :
    Outcome (PegMove × State) := do
  let x := s.scaledReserves
  let s := s.advanceOracle now
  let d ← c.unadjustedInvariant x supplied
  let lastPrice ← c.lastPriceAfter x d s.priceScale tradePrice
  let (virtualPrice, profit) ← s.profitAt d
  if s.wantsMove virtualPrice profit then c.tryMove s d virtualPrice profit lastPrice
  else .ok (.unchanged, s.settle d virtualPrice profit lastPrice)

end VirtualMarket
