/-
VirtualMarket.Market.State — the state of a market between two operations.

The tracked prices and the profit counters live beside the reserves.  A state
is *valid* when the six quantities that everything divides by are positive and
finite; the rest may hold anything.
-/
import VirtualMarket.Curve.Basic

namespace VirtualMarket

/-- Whether the peg is on its way to the oracle price.  The latch is set once
profit allows a move, and stays set from move to move until a candidate is
discarded or the oracle is near again. -/
inductive Latch where
  | settled
  | pending
deriving Repr, DecidableEq

/-- Seconds are counted in 64 bits; beyond their range the count wraps around. -/
def wrap64 (seconds : Int) : Int :=
  seconds.bmod 0x10000000000000000

structure State where
  reserves : Reserves
  /-- The invariant of the scaled reserves. -/
  invariant : Float
  /-- The peg: the price at which base counts as quote. -/
  priceScale : Float
  /-- The moving average of traded prices. -/
  priceOracle : Float
  /-- The price that enters the moving average at the next update. -/
  lastPrice : Float
  /-- The time of the last change of the moving average, in seconds. -/
  lastUpdate : Int
  /-- The half-life of the moving average, in seconds. -/
  halfLife : Float
  totalSupply : Float
  /-- The profit counter, one at the start. -/
  profit : Float
  /-- The value of one liquidity token, one at the start. -/
  virtualPrice : Float
  /-- The least relative distance that the peg moves. -/
  minimumStep : Float
  /-- The profit that must be exceeded before the peg moves. -/
  profitCushion : Float
  latch : Latch

namespace State

def scaledReserves (s : State) : Reserves :=
  s.reserves.scaled s.priceScale

def usable (x : Float) : Bool :=
  x > 0 && x.isFinite

/-- The quantities that must be usable, with their names in messages. -/
def essentials (s : State) : List (String × Float) :=
  [("balances[0]", s.reserves.quote), ("balances[1]", s.reserves.base), ("D", s.invariant),
    ("price_scale", s.priceScale), ("total_supply", s.totalSupply), ("ma_half_time", s.halfLife)]

/-- A state that operations can start from. -/
def Valid (s : State) : Prop :=
  ∀ entry ∈ s.essentials, usable entry.2 = true

/-- Refuses a state by the first quantity that is not usable. -/
def validate (s : State) : Outcome Unit :=
  match s.essentials.find? (fun entry => !usable entry.2) with
  | some (name, value) => .error (.invalidSnapshot (.notPositive name value))
  | none => .ok ()

end State

end VirtualMarket
