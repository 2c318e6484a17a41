/-
VirtualMarket.Snapshot.FixedPoint — fixed-point integers as doubles.

On a ledger an amount is an integer counted in units of `10 ^ -decimals`.  Its
text may have white space around it, a sign and leading zeros; its value must
be a natural number of at most 96 bits.  Conversion takes the whole and the
fractional part apart, so each is rounded by itself, and rounds their sum to
the decimals again.
-/
import VirtualMarket.Fault
import VirtualMarket.Text.Blank

namespace VirtualMarket

namespace FixedPoint

/-- The largest integer of a fixed-point number. -/
def largest : Nat := 0xFFFFFFFFFFFFFFFFFFFFFFFF

/-- The most decimals of a fixed-point number. -/
def mostDecimals : Nat := 28

/-- `value * base ^ exponent` by repeated squaring, every product rounded. -/
def powerOnto (value base : Float) (exponent : Nat) : Float :=
  if exponent = 0 then value
  else
    let value := if exponent % 2 = 1 then value * base else value
    if exponent / 2 = 0 then value else powerOnto value (base * base) (exponent / 2)
termination_by exponent
decreasing_by omega

/-- The double for `n` in units of `10 ^ -decimals`. -/
def toDouble (n decimals : Nat) : Float :=
  if decimals = 0 then Float.ofNat n
  else
    let unit := Nat.pow 10 decimals
    let whole := Float.ofNat (n / unit)
    let fraction := Float.ofNat (n % unit) / Float.ofNat unit
    if fraction == 0 then whole
    else
      let scale := powerOnto 1 10 decimals
      Decimal.roundHalfAway ((whole + fraction) * scale) / scale

/-- Reads the text of a field as a fixed-point number. -/
def decode (field raw : String) (decimals : Nat) : Outcome Float :=
  match Decimal.signed128.read (Text.trimBlank raw.toList) with
  | .error why => .error (.invalidSnapshot (.unreadable field raw why))
  | .ok n =>
    if n < 0 then .error (.invalidSnapshot (.negative field raw))
    else if mostDecimals < decimals then
      .error (.invalidSnapshot (.tooManyDecimals field raw decimals))
    else if largest < n.toNat then .error (.invalidSnapshot (.tooLarge field raw))
    else .ok (toDouble n.toNat decimals)

end FixedPoint

end VirtualMarket
