/-
VirtualMarket.Decimal.Binary64 — what the integers say about a double.

A finite double is a sign and a magnitude `mantissa * 2 ^ exponent` over the
integers.  Rounding to whole numbers is done on that exact view, so it has no
rounding of its own.  `larger` is the maximum that treats a NaN as absent.
-/
namespace VirtualMarket.Decimal

/-! ## The exact view -/

/-- The magnitude of a finite double, `mantissa * 2 ^ exponent`. -/
structure Magnitude where
  mantissa : Nat
  exponent : Int
deriving Repr, DecidableEq

/-- The magnitude held in the bits of a finite double.  The exponent field
zero marks the subnormal doubles, whose leading bit is not implied. -/
def magnitude (x : Float) : Magnitude :=
  let bits := x.toBits
  let field := ((bits >>> 52) &&& 0x7FF).toNat
  let fraction := (bits &&& 0xFFFFFFFFFFFFF).toNat
  if field == 0 then ⟨fraction, -1074⟩ else ⟨0x10000000000000 + fraction, (field : Int) - 1075⟩

/-- Whether the sign bit is set; it is for `-0`. -/
def isNegative (x : Float) : Bool :=
  (x.toBits >>> 63) == 1

def infinity : Float :=
  Float.ofBits 0x7FF0000000000000

def largestFinite : Float :=
  Float.ofBits 0x7FEFFFFFFFFFFFFF

/-! ## Whole numbers -/

/-- The whole number nearest to a magnitude, a half going up. -/
def Magnitude.nearestWhole (x : Magnitude) : Nat :=
  if 0 ≤ x.exponent then x.mantissa * Nat.pow 2 x.exponent.toNat
  else
    let unit := Nat.pow 2 (-x.exponent).toNat
    (2 * x.mantissa + unit) / (2 * unit)

/-- The whole number nearest to a double, halves going away from zero.
Infinities and NaN stay as they are. -/
def roundHalfAway (x : Float) : Float :=
  if x.isFinite then
    let whole := Float.ofNat (magnitude x).nearestWhole
    if isNegative x then -whole else whole
  else x

/-- The whole number nearest to a double, held inside `[low, high]`; a NaN
counts as zero. -/
def toIntWithin (low high : Int) (x : Float) : Int :=
  if x.isNaN then 0
  else if x.isFinite then
    let whole : Int := (magnitude x).nearestWhole
    max low (min high (if isNegative x then -whole else whole))
  else if isNegative x then low else high

/-! ## Order -/

/-- The larger of two doubles; a NaN on one side counts as absent. -/
def larger (x y : Float) : Float :=
  if x.isNaN then y
  else if y.isNaN then x
  else if x < y then y else x

end VirtualMarket.Decimal
