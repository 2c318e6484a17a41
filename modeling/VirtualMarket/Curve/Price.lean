/-
VirtualMarket.Curve.Price — the marginal price.

The price of an infinitesimal trade is the slope of the curve at the scaled
reserves, by the implicit function rule, converted back by the price scale.
-/
import VirtualMarket.Curve.Basic

namespace VirtualMarket.Shape

/-- The marginal price of base in quote at scaled reserves `x` with invariant
`d`. -/
def markPrice (s : Shape) (x : Reserves) (d priceScale : Float) : Float :=
  let dSquare := d * d
  let k0 := 4 * x.quote * x.base / dSquare
  let g1k0 := s.gamma + 1 - k0
  let g1k := (s.amplification * s.gamma * s.gamma) / (g1k0 * g1k0) / amplificationUnit
  let k := g1k * k0
  let p := g1k * (1 + 2 * k0 / g1k0)
  let q := 4 * x.quote / dSquare
  let r := 4 * x.base / dSquare
  let g2k := d * (x.quote + x.base) - dSquare
  let numerator := x.base + p * r * g2k + k * d
  let denominator := p * q * g2k + k * d + x.quote
  let slope := (-numerator) / denominator
  (priceScale / slope).abs

end VirtualMarket.Shape
