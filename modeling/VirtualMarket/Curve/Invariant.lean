/-
VirtualMarket.Curve.Invariant — the invariant of two scaled reserves.

For scaled reserves `x`, `y` the invariant `D` solves

    K₀ = 4xy / D²
    K  = A·K₀·γ² / (γ + 1 - K₀)²
    K·D·(x + y) + xy = K·D² + (D/2)²

by Newton's method.  The step is split into a part that grows the estimate and
a part that shrinks it, so no intermediate value is negative.  The larger
reserve comes first in every expression, which makes the result independent of
which asset is which.
-/
import VirtualMarket.Curve.Basic
import VirtualMarket.Curve.Newton

namespace VirtualMarket

def geometricMean (x y : Float) : Float :=
  (x * y).sqrt

namespace Shape

/-- Newton's next estimate of the invariant. -/
def nextInvariant (s : Shape) (large small d : Float) : Float :=
  let sum := large + small
  let k0 := large * small * 2 * 2 / (d * d)
  let g1k0 := (s.gamma + 1 - k0).abs + smallestUnit
  let mul1 := (d / s.gamma) * (g1k0 / s.gamma) * g1k0 * amplificationUnit / s.amplification
  let mul2 := 2 * 2 * k0 / g1k0
  let slope := (sum + sum * mul2) + mul1 * 2 / k0 - mul2 * d
  let grow := d * (slope + sum) / slope
  let shrink := d * d / slope - d * (mul1 / slope) * (k0 - 1) / k0
  if grow > shrink then grow - shrink else (shrink - grow) / 2

/-- An invariant is accepted if each reserve is a sane share of it. -/
def acceptInvariant (large small d : Float) : Outcome Float :=
  if !Band.share.contains (large / d) then .error (.unsafeIntermediate .reserveShare (large / d))
  else if !Band.share.contains (small / d) then
    .error (.unsafeIntermediate .reserveShare (small / d))
  else .ok d

/-- One step: a new estimate, and the end of the search if it has settled. -/
def invariantStep (s : Shape) (large small d : Float) : Newton.Step :=
  let next := s.nextInvariant large small d
  if Newton.agree next d (Decimal.larger next 1e-2) then .done (acceptInvariant large small next)
  else .again next

/-- The invariant of two scaled reserves within a budget of steps. -/
def invariantWithin (s : Shape) (x : Reserves) (budget : Nat) : Outcome Float := do
  s.guarded
  let (large, small) := if x.quote < x.base then (x.base, x.quote) else (x.quote, x.base)
  guardBand .largerReserve .largerReserve large
  if small / large ≥ 1e-4 then
    Newton.run .invariant (s.invariantStep large small) budget (2 * geometricMean large small)
  else .error (.unsafeParameter .smallerReserve small)

def invariant (s : Shape) (x : Reserves) : Outcome Float :=
  s.invariantWithin x Newton.stepLimit

end Shape

end VirtualMarket
