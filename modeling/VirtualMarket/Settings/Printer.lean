/-
VirtualMarket.Settings.Printer — settings as a TOML text.

Every section has a header and one line for each field, and an empty line stands
between sections.  All defaults are written out.
-/
import VirtualMarket.Settings.Validate

namespace VirtualMarket.Settings

/-- Numbers of settings have the fewest digits that read back, never an
exponent, and always a point.  A NaN has no sign. -/
def numberLayout : Decimal.Layout where
  tie := .awayFromZero
  wholeFraction := true
  positional := none
  nan := "nan"
  positiveInfinity := "inf"
  negativeInfinity := "-inf"

/-! ## Values -/

/-- A value of a field. -/
inductive Written where
  | real (value : Float)
  | integer (value : Int)
  | boolean (value : Bool)

def Written.text : Written → String
  | .real value => numberLayout.render value
  | .integer value => toString value
  | .boolean true => "true"
  | .boolean false => "false"

/-- Whether a value can be written: integers have 64 bits, one of them for the
sign. -/
def Written.fits : Written → Bool
  | .integer value => Decimal.signed64.contains value
  | _ => true

/-! ## Sections -/

/-- A section to be written: its name, and its fields in order. -/
structure WrittenSection where
  name : String
  fields : List (String × Written)

/-- The sections of some settings, in order. -/
def sections (s : Settings) : List WrittenSection :=
  [⟨"curve",
    [("a", .real s.curve.amplification), ("gamma", .real s.curve.gamma),
      ("mid_fee", .real s.curve.feeRate)]⟩,
    ⟨"oracle",
      [("ma_half_time", .real s.tracking.halfLife),
        ("adjustment_step", .real s.tracking.minimumStep),
        ("allowed_extra_profit", .real s.tracking.profitCushion),
        ("trade_interval_secs", .integer s.tracking.tradeInterval)]⟩,
    ⟨"sizing",
      [("unit_trade", .real s.sizing.lot), ("max_steps", .integer s.sizing.maxSteps),
        ("overshoot_tolerance", .real s.sizing.tolerance)]⟩,
    ⟨"simulation",
      [("close_only", .boolean s.plan.closeOnly), ("maker_share", .real s.plan.makerShare),
        ("depth_band", .real s.plan.depthBand), ("candles_per_day", .real s.plan.barsPerDay)]⟩,
    ⟨"seed",
      [("quote_balance", .real s.seed.quoteBalance), ("base_balance", .real s.seed.baseBalance),
        ("price_scale", .real s.seed.priceScale), ("start_time", .integer s.seed.startTime)]⟩]

def fieldLine (name : String) (value : Written) : List Char :=
  name.toList ++ ' ' :: '=' :: ' ' :: value.text.toList ++ ['\n']

def sectionLines (s : WrittenSection) : List Char :=
  '[' :: s.name.toList ++ ']' :: '\n' ::
    s.fields.flatMap fun (name, value) => fieldLine name value

/-- The lines of several sections, with an empty line between two. -/
def allLines : List WrittenSection → List Char
  | [] => []
  | [s] => sectionLines s
  | s :: rest => sectionLines s ++ '\n' :: allLines rest

def print (s : Settings) : Except SettingsFlaw String :=
  if s.sections.all fun part => part.fields.all fun field => field.2.fits then
    .ok (String.ofList (allLines s.sections))
  else .error .unwritable

end VirtualMarket.Settings
