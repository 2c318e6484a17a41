/-
VirtualMarket.Curve.Basic — reserves and the constants of a curve.

A market holds a quote asset and a base asset.  Prices are quote per base, and
the solvers work on *scaled* reserves, in which the base reserve is converted
to quote at the price scale.
-/
import VirtualMarket.Fault

namespace VirtualMarket

/-! ## Assets and reserves -/

inductive Asset where
  | quote
  | base
deriving Repr, DecidableEq

def Asset.other : Asset → Asset
  | .quote => .base
  | .base => .quote

/-- The asset with a given number: the quote asset is 0, the base asset 1. -/
def Asset.ofIndex? : Nat → Option Asset
  | 0 => some .quote
  | 1 => some .base
  | _ => none

/-- The asset with a given number, or the fault that there is none. -/
def Asset.ofIndex (index : Nat) : Outcome Asset :=
  match Asset.ofIndex? index with
  | some asset => .ok asset
  | none => .error (.indexOutOfRange index)

structure Reserves where
  quote : Float
  base : Float

namespace Reserves

def amount (r : Reserves) : Asset → Float
  | .quote => r.quote
  | .base => r.base

/-- Takes an amount of one asset in. -/
def deposit (r : Reserves) (asset : Asset) (amount : Float) : Reserves :=
  match asset with
  | .quote => { r with quote := r.quote + amount }
  | .base => { r with base := r.base + amount }

/-- Hands an amount of one asset out. -/
def withdraw (r : Reserves) (asset : Asset) (amount : Float) : Reserves :=
  match asset with
  | .quote => { r with quote := r.quote - amount }
  | .base => { r with base := r.base - amount }

/-- The reserves with the base asset converted to quote. -/
def scaled (r : Reserves) (price : Float) : Reserves :=
  { r with base := r.base * price }

end Reserves

/-! ## Constants of a curve -/

structure Shape where
  /-- Amplification, counted in ten-thousandths. -/
  amplification : Float := 400000
  gamma : Float := 0.000145

structure Curve extends Shape where
  /-- `0.0005` is five basis points. -/
  feeRate : Float := 0.0005

/-- The unit in which amplification is counted. -/
def amplificationUnit : Float := 10000

/-- The smallest amount that a ledger of 18 decimals can hold. -/
def smallestUnit : Float := 1e-18

/-! ## Guards -/

/-- Refuses a value outside its band. -/
def guardBand (band : Band) (quantity : Quantity) (x : Float) : Outcome Unit :=
  if band.contains x then .ok () else .error (.unsafeParameter quantity x)

/-- Both constants lie in their bands, amplification being looked at first. -/
def Shape.guarded (s : Shape) : Outcome Unit := do
  guardBand .amplification .amplification s.amplification
  guardBand .gamma .gamma s.gamma

/-- Tests the constants of a curve when a market is set up. -/
def Curve.validate (c : Curve) : Outcome Unit :=
  if !Band.amplification.contains c.amplification then
    .error (.invalidParameter (.amplification c.amplification))
  else if !Band.gamma.contains c.gamma then .error (.invalidParameter (.gamma c.gamma))
  else if !(0 ≤ c.feeRate && c.feeRate < 1) then .error (.invalidParameter (.feeRate c.feeRate))
  else .ok ()

end VirtualMarket
