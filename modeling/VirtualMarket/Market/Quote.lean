/-
VirtualMarket.Market.Quote — what a trade would cost.

A quote is computed on native reserves: the traded amount is put in or taken
out, the other reserve is solved in scaled terms, and the difference is
converted back.  The fee is part of the amount, and the marginal price is that
of the reserves after the trade.
-/
import VirtualMarket.Curve.Invariant
import VirtualMarket.Curve.Reserve
import VirtualMarket.Curve.Price

namespace VirtualMarket

/-- The terms of a trade: the amount on the other side, the fee inside it, and
the marginal price after the trade. -/
structure Quote where
  amount : Float
  fee : Float
  markPrice : Float

/-- The assets of an exchange and its amount, once they make sense. -/
def exchangePair (source target : Nat) (amount : Float) : Outcome (Asset × Asset) :=
  if source = target then .error .sameAsset
  else do
    let source ← Asset.ofIndex source
    let target ← Asset.ofIndex target
    if amount > 0 then .ok (source, target) else .error (.nonPositiveAmount amount)

/-- An amount of scaled reserve in native units. -/
def unscaled (asset : Asset) (priceScale amount : Float) : Float :=
  match asset with
  | .quote => amount
  | .base => amount / priceScale

namespace Curve

/-- The marginal price once native reserves have become `after`; their
invariant is solved anew. -/
def markPriceAfter (c : Curve) (after : Reserves) (priceScale : Float) : Outcome Float := do
  let x := after.scaled priceScale
  let d ← c.invariant x
  .ok (c.markPrice x d priceScale)

/-- The amount of `target` handed out for `amount` of `source`; the fee is
deducted from it. -/
def quoteOutput (c : Curve) (source target : Nat) (amount : Float) (reserves : Reserves)
    (d priceScale : Float) : Outcome Quote := do
  let (source, target) ← exchangePair source target amount
  let paid := reserves.deposit source amount
  let x := paid.scaled priceScale
  let left ← c.reserve x d target
  let raw := unscaled target priceScale (x.amount target - left - smallestUnit)
  let fee := c.feeRate * raw
  let output := raw - fee
  let price ← c.markPriceAfter (paid.withdraw target output) priceScale
  .ok ⟨output, fee, price⟩

/-- The amount of `source` that must be paid to receive `amount` of `target`;
the fee comes on top of it. -/
def quoteInput (c : Curve) (source target : Nat) (amount : Float) (reserves : Reserves)
    (d priceScale : Float) : Outcome Quote := do
  let (source, target) ← exchangePair source target amount
  let served := reserves.withdraw target amount
  let x := served.scaled priceScale
  let needed ← c.reserve x d source
  let raw := unscaled source priceScale (needed - x.amount source + smallestUnit)
  let fee := c.feeRate * raw
  let input := raw + fee
  let price ← c.markPriceAfter (served.deposit source input) priceScale
  .ok ⟨input, fee, price⟩

end Curve

end VirtualMarket
