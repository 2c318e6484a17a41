/-
VirtualMarket.Settings.Basic — the settings of a market and of its replay.

Settings come in five sections.  Each section reads its fields from the tree,
by name from a table or by position from a list; a field that is missing keeps
its default.
-/
import VirtualMarket.Market.Peg
import VirtualMarket.Replay.Run
import VirtualMarket.Sizing.Search
import VirtualMarket.Settings.Coerce

namespace VirtualMarket

/-- The deposit that a market starts with. -/
structure Seed where
  quoteBalance : Float := 1000000
  baseBalance : Float := 1000
  priceScale : Float := 1000
  /-- The time of the deposit, in seconds. -/
  startTime : Int := 0

def Seed.reserves (s : Seed) : Reserves :=
  ⟨s.quoteBalance, s.baseBalance⟩

/-- Everything that can be set. -/
structure Settings where
  curve : Curve := {}
  tracking : Tracking := {}
  sizing : Sizing := {}
  plan : ReplayPlan := {}
  seed : Seed := {}

namespace Settings

/-! ## Fields -/

/-- The values that are set in a section, by field name. -/
abbrev Fields := String → Option Tree

/-- The fields of a section.  A list gives them in the order of their names. -/
def Tree.fields? (names : List String) : Tree → Option Fields
  | .table entries => some fun name => entry? name entries
  | .list items => some fun name => entry? name (names.zip items)
  | _ => none

namespace Fields

/-- A field that holds a double. -/
def real? (fields : Fields) (name : String) (default : Float) : Option Float :=
  match fields name with
  | none => some default
  | some value => value.toReal?

def integer? (fields : Fields) (name : String) (default : Int) : Option Int :=
  match fields name with
  | none => some default
  | some value => value.toIntegerIn? Decimal.signed64

def natural? (fields : Fields) (name : String) (default : Nat) : Option Nat :=
  match fields name with
  | none => some default
  | some value => (value.toIntegerIn? Decimal.unsigned64).map Int.toNat

def boolean? (fields : Fields) (name : String) (default : Bool) : Option Bool :=
  match fields name with
  | none => some default
  | some value => value.toBoolean?

end Fields

/-! ## Sections -/

/-- A section of settings: what it is called, its fields in order, and how it is
read from them. -/
structure Section (α : Type) where
  name : String
  fieldNames : List String
  read : Fields → Option α

/-- Reads a section from the tree.  A section that is missing sets no field. -/
def Section.ofTree? {α : Type} (s : Section α) (tree : Tree) : Option α :=
  match tree.child? s.name with
  | none => s.read fun _ => none
  | some content => (content.fields? s.fieldNames).bind s.read

def curveSection : Section Curve where
  name := "curve"
  fieldNames := ["a", "gamma", "mid_fee"]
  read fields := do
    let d : Curve := {}
    some {
      amplification := ← fields.real? "a" d.amplification
      gamma := ← fields.real? "gamma" d.gamma
      feeRate := ← fields.real? "mid_fee" d.feeRate }

def trackingSection : Section Tracking where
  name := "oracle"
  fieldNames := ["ma_half_time", "adjustment_step", "allowed_extra_profit", "trade_interval_secs"]
  read fields := do
    let d : Tracking := {}
    some {
      halfLife := ← fields.real? "ma_half_time" d.halfLife
      minimumStep := ← fields.real? "adjustment_step" d.minimumStep
      profitCushion := ← fields.real? "allowed_extra_profit" d.profitCushion
      tradeInterval := ← fields.integer? "trade_interval_secs" d.tradeInterval }

def sizingSection : Section Sizing where
  name := "sizing"
  fieldNames := ["unit_trade", "max_steps", "overshoot_tolerance"]
  read fields := do
    let d : Sizing := {}
    some {
      lot := ← fields.real? "unit_trade" d.lot
      maxSteps := ← fields.natural? "max_steps" d.maxSteps
      tolerance := ← fields.real? "overshoot_tolerance" d.tolerance }

def planSection : Section ReplayPlan where
  name := "simulation"
  fieldNames := ["close_only", "maker_share", "depth_band", "candles_per_day"]
  read fields := do
    let d : ReplayPlan := {}
    some {
      closeOnly := ← fields.boolean? "close_only" d.closeOnly
      makerShare := ← fields.real? "maker_share" d.makerShare
      depthBand := ← fields.real? "depth_band" d.depthBand
      barsPerDay := ← fields.real? "candles_per_day" d.barsPerDay }

def seedSection : Section Seed where
  name := "seed"
  fieldNames := ["quote_balance", "base_balance", "price_scale", "start_time"]
  read fields := do
    let d : Seed := {}
    some {
      quoteBalance := ← fields.real? "quote_balance" d.quoteBalance
      baseBalance := ← fields.real? "base_balance" d.baseBalance
      priceScale := ← fields.real? "price_scale" d.priceScale
      startTime := ← fields.integer? "start_time" d.startTime }

/-- The names of all sections and of their fields. -/
def fieldNames : List (String × List String) :=
  [(curveSection.name, curveSection.fieldNames), (trackingSection.name, trackingSection.fieldNames),
    (sizingSection.name, sizingSection.fieldNames), (planSection.name, planSection.fieldNames),
    (seedSection.name, seedSection.fieldNames)]

/-- The settings of a tree; `none` if a value has no meaning for its field. -/
def ofTree? (tree : Tree) : Option Settings := do
  some {
    curve := ← curveSection.ofTree? tree
    tracking := ← trackingSection.ofTree? tree
    sizing := ← sizingSection.ofTree? tree
    plan := ← planSection.ofTree? tree
    seed := ← seedSection.ofTree? tree }

end Settings

end VirtualMarket
