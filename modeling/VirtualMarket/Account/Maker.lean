/-
VirtualMarket.Account.Maker — the value of a liquidity provider's share.

A share is valued as if it were withdrawn.  The withdrawn reserves less the
basis recorded when the tokens were minted are a position, which is then
closed against the pool that is left.
-/
import VirtualMarket.Account.Taker
import VirtualMarket.Market.State

namespace VirtualMarket

/-! ## Basis -/

/-- What a maker recorded when minting liquidity tokens. -/
structure Basis where
  tokens : Float
  quote : Float
  base : Float

/-- The basis of a maker who owns a fraction of a market's liquidity. -/
def Basis.proRata (s : State) (fraction : Float) : Basis :=
  ⟨s.totalSupply * fraction, s.reserves.quote * fraction, s.reserves.base * fraction⟩

/-- The value of a basis in quote. -/
def Basis.notional (b : Basis) (price : Float) : Float :=
  b.quote + b.base * price

/-! ## Withdrawal -/

/-- A withdrawn share before it is marked to the curve, and the pool that it
leaves. -/
structure Share where
  position : Position
  /-- Profit or loss that no longer belongs to the position. -/
  realized : Float
  invariant : Float
  reserves : Reserves

/-- Splits an open notional into a realized part and what stays open.  A
negative notional is realized in full, as a profit for a long and a loss for a
short; the positive notional of a flat position is fees earned. -/
def settleNotional (size openNotional : Float) : Float × Float :=
  if openNotional < 0 then
    (if size > 0 then -openNotional else if size < 0 then openNotional else 0, 0)
  else if openNotional > 0 && size == 0 then (openNotional, 0)
  else (0, openNotional)

/-- The part of a basis amount that goes with a withdrawal of `tokens` out of
`minted`; a withdrawal of all of them takes it unrounded. -/
def basisPart (part tokens minted : Float) : Float :=
  if tokens == minted then part else part * tokens / minted

/-- Withdraws a positive amount of tokens. -/
def State.withdrawTokens (s : State) (tokens : Float) (b : Basis) : Share :=
  let quote := s.reserves.quote * tokens / s.totalSupply
  let base := s.reserves.base * tokens / s.totalSupply
  let size := base - basisPart b.base tokens b.tokens
  let basisQuote := basisPart b.quote tokens b.tokens
  let openNotional := if size > 0 then basisQuote - quote else quote - basisQuote
  let (realized, remaining) := settleNotional size openNotional
  { position := ⟨size, remaining⟩
    realized := realized
    invariant := s.invariant - s.invariant * tokens / s.totalSupply
    reserves := ⟨s.reserves.quote - quote, s.reserves.base - base⟩ }

/-- The share of `tokens` out of those minted against a basis.  No tokens are
a flat share, whatever the basis. -/
def State.makerShare (s : State) (tokens : Float) (b : Basis) : Outcome Share :=
  if !(tokens ≥ 0) then .error (.nonPositiveAmount tokens)
  else if tokens == 0 then .ok ⟨⟨0, 0⟩, 0, s.invariant, s.reserves⟩
  else if !(b.tokens > 0) then .error (.nonPositiveAmount b.tokens)
  else if tokens > s.totalSupply then .error (.insufficientLiquidity tokens s.totalSupply)
  else .ok (s.withdrawTokens tokens b)

/-! ## Valuation -/

/-- The position implied by a share, with its profit or loss. -/
structure MakerValue where
  position : Position
  unrealized : Float

/-- A share marked to the pool that it leaves. -/
def Curve.makerValue (c : Curve) (s : State) (tokens : Float) (b : Basis) :
    Outcome MakerValue := do
  let share ← s.makerShare tokens b
  let closing ← c.closePosition share.position share.reserves share.invariant s.priceScale
  .ok ⟨share.position, closing.unrealized + share.realized⟩

end VirtualMarket
