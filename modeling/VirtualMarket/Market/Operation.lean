/-
VirtualMarket.Market.Operation — operations on a pool as data, and runs.

An operation is a program on a pool: it has an answer, or fails, and leaves a
pool either way.  Only trades and updates write to the pool; all else reads.  A
run applies operations in order and collects their answers.
-/
import VirtualMarket.Market.Program
import VirtualMarket.Account.Maker
import VirtualMarket.Sizing.Search

namespace VirtualMarket

/-- What can be asked of a pool.  A trade without a time happens one trade
interval after the last update. -/
inductive Operation where
  | markPrice
  | reserves
  | quotePurchase (size : Float)
  | quoteSale (size : Float)
  | buy (size most : Float) (time : Option Int)
  | sell (size least : Float) (time : Option Int)
  | update (tradePrice supplied : Option Float) (time : Int)
  | makerValue (tokens : Float) (basis : Basis)
  | closePosition (position : Position)
  | sizeToTarget (sizing : Sizing) (target : Float)
  | depth (sizing : Sizing) (band : Float)

/-- The answer to an operation that succeeded. -/
inductive Answer where
  | number (value : Float)
  | reserves (value : Reserves)
  | quote (value : Quote)
  | execution (value : Execution)
  | peg (value : PegMove)
  | maker (value : MakerValue)
  | closing (value : Closing)

namespace Operation

/-- Whether an operation may change the pool. -/
def mutates : Operation → Bool
  | .buy .. => true
  | .sell .. => true
  | .update .. => true
  | _ => false

/-- What an operation does to the pool that it is applied to. -/
def program : Operation → Program Pool Answer
  | .markPrice => return .number (← get).markPrice
  | .reserves => return .reserves (← get).state.reserves
  | .quotePurchase size => return .quote (← (← get).quotePurchase size)
  | .quoteSale size => return .quote (← (← get).quoteSale size)
  | .buy size most time => do
    let now := time.getD (← get).nextTime
    return .execution (← Pool.executePurchase size most now)
  | .sell size least time => do
    let now := time.getD (← get).nextTime
    return .execution (← Pool.executeSale size least now)
  | .update tradePrice supplied time => return .peg (← Pool.tweak tradePrice supplied time)
  | .makerValue tokens basis => do
    let p ← get
    return .maker (← p.curve.makerValue p.state tokens basis)
  | .closePosition position => do
    let p ← get
    return .closing (← p.curve.closePosition position p.state.reserves p.state.invariant
      p.state.priceScale)
  | .sizeToTarget sizing target => return .number (← sizing.sizeToTarget (← get).venue target)
  | .depth sizing band => return .number (← sizing.depth (← get).venue band)

end Operation

namespace Pool

/-- The answer to an operation, and the pool afterwards. -/
def apply (p : Pool) (op : Operation) : Outcome Answer × Pool :=
  op.program.runOn p

/-- The answers to a sequence of operations, and the pool after all of them. -/
def run (p : Pool) : List Operation → List (Outcome Answer) × Pool
  | [] => ([], p)
  | op :: rest =>
    let (answer, after) := p.apply op
    let (answers, last) := after.run rest
    (answer :: answers, last)

end Pool

end VirtualMarket
