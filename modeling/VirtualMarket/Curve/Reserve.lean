/-
VirtualMarket.Curve.Reserve — one scaled reserve from the other.

With the invariant and one reserve given, the other is found by Newton's
method on that single unknown.  A step that would leave the curve halves the
estimate instead and is not tested for convergence.
-/
import VirtualMarket.Curve.Basic
import VirtualMarket.Curve.Newton

namespace VirtualMarket.Shape

/-- A solved reserve is accepted if it is a sane share of the invariant. -/
def acceptReserve (d y : Float) : Outcome Float :=
  if Band.share.contains (y / d) then .ok y else .error (.unsafeIntermediate .solvedShare (y / d))

/-- One step on the unknown reserve `y` beside the known one. -/
def reserveStep (s : Shape) (known d y : Float) : Newton.Step :=
  let k0 := 2 * known / d * y * 2 / d
  let sum := known + y
  let g1k0 := (s.gamma + 1 - k0).abs + smallestUnit
  let mul1 := (d / s.gamma) * (g1k0 / s.gamma) * g1k0 * amplificationUnit / s.amplification
  let mul2 := 1 + 2 * k0 / g1k0
  let rise := y + sum * mul2 + mul1
  let fall := d * mul2
  if rise < fall then .again (y / 2)
  else
    let excess := rise - fall
    let slope := excess / y
    let plus := (excess + d) / slope + mul1 / slope / k0
    let minus := mul1 / slope + sum / slope
    let next := if plus < minus then y / 2 else plus - minus
    let limit := Decimal.larger (Decimal.larger known d) 0.01
    if Newton.agree next y (Decimal.larger limit next) then .done (acceptReserve d next)
    else .again next

/-- Newton's method for the unknown reserve from a given first estimate,
without guards. -/
def reserveFrom (s : Shape) (known d start : Float) : Outcome Float :=
  Newton.run .reserve (s.reserveStep known d) Newton.stepLimit start

/-- The scaled reserve of `asset` that goes with the reserve of the other
asset in `x` and the invariant `d`. -/
def reserve (s : Shape) (x : Reserves) (d : Float) (asset : Asset) : Outcome Float := do
  s.guarded
  guardBand .invariant .invariant d
  let known := x.amount asset.other
  guardBand .knownShare .knownShare (2 * known / d)
  s.reserveFrom known d (d * d / (known * 2 * 2))

/-- The scaled reserve of the asset with a given number, if there is such an asset. -/
def reserveAt (s : Shape) (x : Reserves) (d : Float) (index : Nat) : Outcome Float := do
  let asset ← Asset.ofIndex index
  s.reserve x d asset

end VirtualMarket.Shape
