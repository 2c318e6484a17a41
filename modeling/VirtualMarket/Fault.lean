/-
VirtualMarket.Fault — what can go wrong in a market.

A fault names its cause and holds the values involved; `Fault.message` is the
only place where causes become words.  `Fault.isFatal` tells the faults that
call for a halt from those that call for another quote.
-/
import VirtualMarket.Curve.Band
import VirtualMarket.Decimal.Layout
import VirtualMarket.Decimal.Numeral

namespace VirtualMarket

open Decimal (plain IntegerFlaw)

/-! ## Causes -/

/-- A quantity that a solver guards. -/
inductive Quantity where
  | amplification
  | gamma
  | invariant
  | largerReserve
  | smallerReserve
  | knownShare
  | reserveShare
  | solvedShare
deriving Repr, DecidableEq

def Quantity.symbol : Quantity → String
  | .amplification => "A"
  | .gamma => "gamma"
  | .invariant => "D"
  | .largerReserve => "x[0]"
  | .smallerReserve => "x[1]"
  | .knownShare => "k0_i"
  | .reserveShare => "x/D"
  | .solvedShare => "y/D"

/-- The two Newton solvers. -/
inductive Solver where
  | invariant
  | reserve
deriving Repr, DecidableEq

def Solver.label : Solver → String
  | .invariant => "solve_d"
  | .reserve => "solve_y"

/-- Why a snapshot is unusable. -/
inductive SnapshotFlaw where
  /-- The text of a field is no integer. -/
  | unreadable (field raw : String) (why : IntegerFlaw)
  /-- The integer of a field is below zero. -/
  | negative (field raw : String)
  /-- More decimals are asked for than a fixed-point number can have. -/
  | tooManyDecimals (field raw : String) (decimals : Nat)
  /-- The integer of a field has more than 96 bits. -/
  | tooLarge (field raw : String)
  /-- A field that must be positive and finite is not. -/
  | notPositive (field : String) (value : Float)

/-- Why a parameter is refused. -/
inductive ParameterFlaw where
  | amplification (value : Float)
  | gamma (value : Float)
  | feeRate (value : Float)
  | halfLife (value : Float)
  | negativeTracking
  | tradeInterval (seconds : Int)
  | lot (value : Float)
  | noSteps
  | tolerance (value : Float)
  | depthBand (value : Float)

/-- The causes of failure of every market operation. -/
inductive Fault where
  /-- An input outside its band. -/
  | unsafeParameter (quantity : Quantity) (value : Float)
  /-- A solved ratio outside its band. -/
  | unsafeIntermediate (quantity : Quantity) (value : Float)
  /-- Newton's method used up its steps. -/
  | didNotConverge (solver : Solver)
  /-- The amount of a trade violates the bound of who asked for it. -/
  | slippageExceeded (realized limit : Float)
  /-- The virtual price fell between two updates. -/
  | lossDetected (previous current : Float)
  | sameAsset
  | indexOutOfRange (index : Nat)
  | nonPositiveAmount (amount : Float)
  | insufficientLiquidity (requested available : Float)
  | invalidSnapshot (flaw : SnapshotFlaw)
  | invalidParameter (flaw : ParameterFlaw)
  /-- No lot up to the step limit reached the target. -/
  | searchExhausted (steps : Nat) (size : Float)
  /-- A lot moves the price beyond the tolerance. -/
  | targetOvershoot (markPrice target : Float)

/-- The result of an operation that may fail. -/
abbrev Outcome (α : Type) := Except Fault α

/-! ## Words -/

private def num (x : Float) : String :=
  plain.render x

/-- `name=value outside [low, high]`. -/
private def outside (name : String) (value : Float) (band : Band) : String :=
  name ++ "=" ++ num value ++ " outside [" ++ num band.low ++ ", " ++ num band.high ++ "]"

def SnapshotFlaw.message : SnapshotFlaw → String
  | .unreadable field raw why => field ++ ": '" ++ raw ++ "' (" ++ why.message ++ ")"
  | .negative field raw => field ++ ": negative value " ++ raw
  | .tooManyDecimals field raw decimals =>
    field ++ ": '" ++ raw ++ "' (Scale exceeds the maximum precision allowed: "
      ++ toString decimals ++ " > 28)"
  | .tooLarge field raw =>
    field ++ ": '" ++ raw ++ "' (Number exceeds maximum value that can be represented.)"
  | .notPositive field value => field ++ " must be positive and finite, got " ++ num value

def ParameterFlaw.message : ParameterFlaw → String
  | .amplification value => outside "A" value .amplification
  | .gamma value => outside "gamma" value .gamma
  | .feeRate value => "mid_fee=" ++ num value ++ " outside [0, 1)"
  | .halfLife value => "ma_half_time=" ++ num value ++ " must be positive"
  | .negativeTracking => "adjustment_step and allowed_extra_profit must be non-negative"
  | .tradeInterval seconds =>
    "trade_interval_secs=" ++ toString seconds ++ " must be non-negative"
  | .lot value => "unit_trade must be positive, got " ++ num value
  | .noSteps => "max_steps must be at least 1"
  | .tolerance value => "overshoot_tolerance must be in [0, 1), got " ++ num value
  | .depthBand value => "depth band must be in (0, 1), got " ++ num value

def Fault.message : Fault → String
  | .unsafeParameter quantity value => "unsafe value for " ++ quantity.symbol ++ ": " ++ num value
  | .unsafeIntermediate quantity value =>
    "unsafe intermediate value for " ++ quantity.symbol ++ ": " ++ num value
  | .didNotConverge solver => solver.label ++ " did not converge"
  | .slippageExceeded realized limit =>
    "slippage exceeded: realized " ++ num realized ++ ", limit " ++ num limit
  | .lossDetected previous current =>
    "loss detected: virtual price " ++ num current ++ " below previous " ++ num previous
  | .sameAsset => "same input and output coin"
  | .indexOutOfRange index => "coin index " ++ toString index ++ " out of range"
  | .nonPositiveAmount amount => "can only exchange positive amounts, got " ++ num amount
  | .insufficientLiquidity requested available =>
    "insufficient liquidity: requested " ++ num requested ++ ", available " ++ num available
  | .invalidSnapshot flaw => "invalid snapshot: " ++ flaw.message
  | .invalidParameter flaw => "invalid parameter: " ++ flaw.message
  | .searchExhausted steps size =>
    "trade size search exhausted after " ++ toString steps ++ " steps (size " ++ num size ++ ")"
  | .targetOvershoot markPrice target =>
    "mark price " ++ num markPrice ++ " overshot target " ++ num target

/-- Whether a fault calls for a halt: a loss, or a value that left its band. -/
def Fault.isFatal : Fault → Bool
  | .unsafeParameter .. => true
  | .unsafeIntermediate .. => true
  | .lossDetected .. => true
  | _ => false

end VirtualMarket
