/-
VirtualMarket.Curve.Newton — bounded iteration.

Both solvers of the curve repeat a step until it ends the search or the budget
of steps is spent.  How a step moves on and when it ends is the solver's.
-/
import VirtualMarket.Fault

namespace VirtualMarket.Newton

/-- What one step makes of an estimate. -/
inductive Step where
  | again (estimate : Float)
  | done (result : Outcome Float)

/-- Repeats a step at most `budget` times. -/
def run (solver : Solver) (step : Float → Step) : Nat → Float → Outcome Float
  | 0, _ => .error (.didNotConverge solver)
  | budget + 1, estimate =>
    match step estimate with
    | .again next => run solver step budget next
    | .done result => result

def stepLimit : Nat := 255

/-- Whether two successive estimates agree to fourteen digits of `scale`. -/
def agree (estimate previous scale : Float) : Bool :=
  (estimate - previous).abs * 1e14 < scale

end VirtualMarket.Newton
