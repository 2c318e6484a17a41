/-
VirtualMarket.Market.Program — trades and updates that keep their state in place.

A program works on a state that belongs to its caller.  It may fail at any
step, and nothing takes back what it has written by then.  The update of a
market writes field by field, with failures in between, so it is run on a copy
of the state; a trade writes its reserves to a copy of its own before.  Only
after the last step that can fail does a copy take the place of the state.
-/
import VirtualMarket.Market.Pool

namespace VirtualMarket

/-- A program on a state.  It leaves a state even if it fails. -/
abbrev Program (σ α : Type) := ExceptT Fault (StateM σ) α

namespace Program

variable {σ α : Type}

/-- The outcome of a program, and the state that it leaves. -/
def runOn (x : Program σ α) (s : σ) : Outcome α × σ :=
  x.run s

/-- Runs a program on a copy of the state, which takes the place of the state if
the program succeeds. -/
def onCopy (x : Program σ α) : Program σ α := do
  let (outcome, copy) := x.runOn (← get)
  let a ← outcome
  set copy
  return a

end Program

/-! ## The update -/

/-- Sets the latch if the oracle is farther away than a step and the profit
exceeds the cushion.  The virtual price is still the old one. -/
def State.arm (s : State) (virtualPrice : Float) : State :=
  if s.latch ≠ .pending ∧ virtualPrice * 2 - 1 > s.profit + 2 * s.profitCushion
      ∧ s.distance > s.stepFor s.distance ∧ s.virtualPrice > 0 then
    { s with latch := .pending }
  else s

namespace Curve

/-- The end of an update, which decides about the peg: `x` are the scaled
reserves, `d` their invariant and `virtualPrice` the virtual price there. -/
def adjust (c : Curve) (x : Reserves) (d virtualPrice : Float) : Program State PegMove := do
  let s ← get
  if s.latch = .pending ∧ s.distance > s.stepFor s.distance ∧ s.virtualPrice > 0 then
    let peg := s.candidatePeg
    let moved ← c.invariant { x with base := x.base * peg / s.priceScale }
    let candidate := virtualPriceAt moved peg s.totalSupply
    if keepsProfit candidate s.profit then
      modify ({ · with priceScale := peg, invariant := moved, virtualPrice := candidate })
      return .moved s.priceScale peg
    else
      modify ({ · with latch := .settled, invariant := d, virtualPrice := virtualPrice })
      return .discarded peg
  else
    modify ({ · with invariant := d, virtualPrice := virtualPrice, latch := .settled })
    return .unchanged

/-- Brings a state up to date where it stands.  A failure leaves it halfway. -/
def revise (c : Curve) (tradePrice supplied : Option Float) (now : Int) :
    Program State PegMove := do
  let x := (← get).scaledReserves
  modify (·.advanceOracle now)
  let d ← c.unadjustedInvariant x supplied
  let lastPrice ← c.lastPriceAfter x d (← get).priceScale tradePrice
  modify ({ · with lastPrice := lastPrice })
  let (virtualPrice, profit) ← (← get).profitAt d
  modify ({ · with profit := profit })
  modify (·.arm virtualPrice)
  c.adjust x d virtualPrice

/-- Brings a state up to date.  It is written only if the whole update succeeds. -/
def tweak (c : Curve) (tradePrice supplied : Option Float) (now : Int) : Program State PegMove :=
  (c.revise tradePrice supplied now).onCopy

end Curve

/-! ## Trades -/

namespace Pool

/-- Completes a trade.  `next` is a copy of the state with the reserves after
the trade; it takes the place of the state if it can be brought up to date. -/
def complete (next : State) (quote : Quote) (price : Float) (now : Int) :
    Program Pool Execution := do
  let (outcome, next) := ((← get).curve.tweak (some price) none now).runOn next
  let peg ← outcome
  modify ({ · with state := next })
  return ⟨quote.amount, quote.fee, price, (← get).markPrice, peg⟩

/-- Sells `size` base for at least `least` quote. -/
def executeSale (size least : Float) (now : Int) : Program Pool Execution := do
  let quote ← (← get).quoteSale size
  if quote.amount < least then throw (.slippageExceeded quote.amount least)
  let next := (← get).state
  let next := { next with reserves := next.reserves.deposit .base size }
  let next := { next with reserves := next.reserves.withdraw .quote quote.amount }
  complete next quote (quote.amount / size) now

/-- Buys `size` base for at most `most` quote. -/
def executePurchase (size most : Float) (now : Int) : Program Pool Execution := do
  let quote ← (← get).quotePurchase size
  if quote.amount > most then throw (.slippageExceeded quote.amount most)
  let next := (← get).state
  let next := { next with reserves := next.reserves.deposit .quote quote.amount }
  let next := { next with reserves := next.reserves.withdraw .base size }
  complete next quote (quote.amount / size) now

/-- Updates the state of the pool, in its place, without a trade. -/
def tweak (tradePrice supplied : Option Float) (now : Int) : Program Pool PegMove := do
  let p ← get
  let (outcome, state) := (p.curve.tweak tradePrice supplied now).runOn p.state
  set { p with state := state }
  outcome

end Pool

end VirtualMarket
