/-
VirtualMarket.Sizing.Search — the first lot that brings the price to a target.

The size grows lot by lot and every candidate is quoted, until the marginal
price has crossed the target.  The search is coarse on purpose: it gives the
first size on the grid, not the exact crossing.
-/
import VirtualMarket.Sizing.Venue

namespace VirtualMarket

/-- How a trade is sized. -/
structure Sizing where
  /-- The base added with every step. -/
  lot : Float := 5
  /-- The steps before the search gives up. -/
  maxSteps : Nat := 1000
  /-- The fraction by which the price may pass the target. -/
  tolerance : Float := 0.05

namespace Sizing

/-- Tests the settings of a search. -/
def validate (s : Sizing) : Outcome Unit :=
  if !(s.lot > 0) || !s.lot.isFinite then .error (.invalidParameter (.lot s.lot))
  else if s.maxSteps = 0 then .error (.invalidParameter .noSteps)
  else if !(0 ≤ s.tolerance && s.tolerance < 1) then
    .error (.invalidParameter (.tolerance s.tolerance))
  else .ok ()

/-- Grows `size` by the lot, at most `steps` times, until `reached` holds. -/
def walk (s : Sizing) (reached : Float → Outcome Bool) : Nat → Float → Outcome Float
  | 0, size => .error (.searchExhausted s.maxSteps size)
  | steps + 1, size =>
    let next := size + s.lot
    match reached next with
    | .error fault => .error fault
    | .ok true => .ok next
    | .ok false => walk s reached steps next

/-- Whether buying `size` lifts the price to the target. -/
def purchaseReaches (s : Sizing) (v : Venue) (target size : Float) : Outcome Bool :=
  if size ≥ v.reserves.base then .error (.insufficientLiquidity size v.reserves.base)
  else do
    let quote ← v.quotePurchase size
    if quote.markPrice > target * (1 + s.tolerance) then
      .error (.targetOvershoot quote.markPrice target)
    else .ok (quote.markPrice ≥ target)

/-- Whether selling `size` lowers the price to the target. -/
def saleReaches (s : Sizing) (v : Venue) (target size : Float) : Outcome Bool := do
  let quote ← v.quoteSale size
  if quote.markPrice < target * (1 - s.tolerance) then
    .error (.targetOvershoot quote.markPrice target)
  else .ok (quote.markPrice ≤ target)

/-- The signed size of the trade that brings a venue to a target price:
positive to buy, negative to sell, zero if the venue is there already. -/
def sizeToTarget (s : Sizing) (v : Venue) (target : Float) : Outcome Float :=
  if !(target > 0) || !target.isFinite then .error (.nonPositiveAmount target)
  else if v.markPrice < target then s.walk (s.purchaseReaches v target) s.maxSteps 0
  else if v.markPrice > target then do
    let size ← s.walk (s.saleReaches v target) s.maxSteps 0
    .ok (-size)
  else .ok 0

/-- The quote needed to move the price by a relative band: the mean of both
directions, at the marginal price. -/
def depth (s : Sizing) (v : Venue) (band : Float) : Outcome Float :=
  if !(band > 0) || band ≥ 1 then .error (.invalidParameter (.depthBand band))
  else do
    let up ← s.sizeToTarget v (v.markPrice * (1 + band))
    let down ← s.sizeToTarget v (v.markPrice * (1 - band))
    .ok (v.markPrice * (up.abs + down.abs) / 2)

end Sizing

end VirtualMarket
