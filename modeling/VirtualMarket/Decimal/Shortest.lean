/-
VirtualMarket.Decimal.Shortest — the fewest digits that read back.

`toDouble` reads `digits * 10 ^ exponent` as the nearest double, ties to even.
`shortest` goes the other way: of all decimals that `toDouble` reads as a given
double it takes one with the fewest digits, and of those the nearest.  On the
grid of `n` digits only the two neighbours of the value can be that decimal,
so the search tries them for `n = 1, 2, …`.
-/
import VirtualMarket.Decimal.Binary64

namespace VirtualMarket.Decimal

/-- A decimal `digits * 10 ^ exponent`. -/
structure Scaled where
  digits : Nat
  exponent : Int
deriving Repr, DecidableEq

/-- Drops trailing zeros into the exponent. -/
def Scaled.trimmed (d : Scaled) : Scaled :=
  if h : d.digits ≠ 0 ∧ d.digits % 10 = 0 then
    Scaled.trimmed ⟨d.digits / 10, d.exponent + 1⟩
  else d
termination_by d.digits
decreasing_by omega

/-! ## Reading -/

/-- The double nearest to `digits * 10 ^ exponent`, ties to even.  Beyond the
range of doubles the answer is infinity or zero, known from the leading
position alone.  Trailing zeros are dropped first, so two ways to write one
decimal are read alike. -/
def Scaled.toDouble (d : Scaled) : Float :=
  let d := d.trimmed
  if d.digits = 0 then 0
  else
    let position := d.exponent + (d.digits.log2 * 30103 / 100000 : Nat)
    if 310 < position then infinity
    else if position < -330 then 0
    else Float.ofScientific d.digits (d.exponent < 0) d.exponent.natAbs

/-! ## Writing -/

/-- What becomes of a value halfway between two candidates. -/
inductive Tie where
  | awayFromZero
  | toEven
deriving Repr, DecidableEq

/-- `mantissa * 2 ^ exponent < 10 ^ power`, without division. -/
def Magnitude.belowPowerOfTen (x : Magnitude) (power : Int) : Bool :=
  x.mantissa * Nat.pow 2 x.exponent.toNat * Nat.pow 10 (-power).toNat
    < Nat.pow 10 power.toNat * Nat.pow 2 (-x.exponent).toNat

/-- The number of digits before the point: the least power of ten above the
value, from an estimate by the binary logarithm. -/
def Magnitude.leadingPower (x : Magnitude) : Int :=
  let estimate := (((x.mantissa.log2 : Int) + x.exponent) * 30103).fdiv 100000
  if x.belowPowerOfTen estimate then estimate
  else if x.belowPowerOfTen (estimate + 1) then estimate + 1
  else estimate + 2

/-- The numerator and denominator of the value in units of `10 ^ power`. -/
def Magnitude.inUnits (x : Magnitude) (power : Int) : Nat × Nat :=
  (x.mantissa * Nat.pow 2 x.exponent.toNat * Nat.pow 10 (-power).toNat,
    Nat.pow 10 power.toNat * Nat.pow 2 (-x.exponent).toNat)

/-- Of two neighbouring grid points the one nearer to `num / den`. -/
def nearer (tie : Tie) (num den lower : Nat) : Nat :=
  match compare (2 * num) ((2 * lower + 1) * den), tie with
  | .lt, _ => lower
  | .gt, _ => lower + 1
  | .eq, .awayFromZero => lower + 1
  | .eq, .toEven => if lower % 2 = 0 then lower else lower + 1

/-- The neighbour of the value on the grid `10 ^ power` that reads back as
`x`, the nearer one where both do. -/
def onGrid? (tie : Tie) (x : Float) (power : Int) : Option Scaled :=
  let (num, den) := (magnitude x).inUnits power
  let lower := num / den
  let readsBack (digits : Nat) : Bool := Scaled.toDouble ⟨digits, power⟩ == x
  match readsBack lower, readsBack (lower + 1) with
  | true, true => some ⟨nearer tie num den lower, power⟩
  | true, false => some ⟨lower, power⟩
  | false, true => some ⟨lower + 1, power⟩
  | false, false => none

/-- Every decimal digit of a magnitude. -/
def Magnitude.exact (x : Magnitude) : Scaled :=
  if 0 ≤ x.exponent then ⟨x.mantissa * Nat.pow 2 x.exponent.toNat, 0⟩
  else ⟨x.mantissa * Nat.pow 5 (-x.exponent).toNat, x.exponent⟩

/-- Tries grids of `digits`, `digits + 1`, … digits, `tries` of them. -/
def searchGrids (tie : Tie) (x : Float) (lead : Int) : Nat → Nat → Option Scaled
  | 0, _ => none
  | tries + 1, digits =>
    match onGrid? tie x (lead - digits) with
    | some d => some d
    | none => searchGrids tie x lead tries (digits + 1)

/-- The fewest digits that read back as the positive finite double `x`, the
nearest of those.  Seventeen digits always do; were they not enough, all
digits of the value would be given. -/
def shortest (tie : Tie) (x : Float) : Scaled :=
  let m := magnitude x
  ((searchGrids tie x m.leadingPower 18 1).getD m.exact).trimmed

end VirtualMarket.Decimal
