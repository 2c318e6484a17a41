/-
VirtualMarket.Curve.Band — the closed ranges inside which the curve is safe.

Construction and the solvers test against the same bands, so what is accepted
once can be solved.  A NaN lies in no band.
-/
namespace VirtualMarket

/-- A closed range of doubles. -/
structure Band where
  low : Float
  high : Float

/-- Whether a value lies between the ends, ends included. -/
def Band.contains (b : Band) (x : Float) : Bool :=
  b.low ≤ x && x ≤ b.high

namespace Band

/-- Amplification, counted in ten-thousandths. -/
def amplification : Band := ⟨4000, 4000000000⟩

/-- The curvature constant gamma. -/
def gamma : Band := ⟨1e-8, 2e-2⟩

/-- An invariant handed in from outside. -/
def invariant : Band := ⟨0.1, 1e15⟩

/-- The larger of two scaled reserves. -/
def largerReserve : Band := ⟨1e-9, 1e15⟩

/-- A reserve over the invariant, once solved. -/
def share : Band := ⟨1e-2, 1e2⟩

/-- Twice the known reserve over the invariant. -/
def knownShare : Band := ⟨1e-2 * 2, 1e2 * 2⟩

end Band

end VirtualMarket
