/-
VirtualMarket.Settings.Validate — settings that can be used.

`SettingsFlaw` names everything that can be wrong with settings, from a file
that is missing to a value out of bounds.  A flaw that a market's own test found
keeps the fault as its cause.
-/
import VirtualMarket.Settings.Basic

namespace VirtualMarket

/-! ## Flaws -/

/-- What can be wrong with settings. -/
inductive SettingsFlaw where
  /-- A file is missing, has no known format or is no document. -/
  | unbuildable
  /-- A text is no document. -/
  | unparsable
  /-- A value has no meaning for its field. -/
  | unreadable
  /-- A value cannot be written. -/
  | unwritable
  | curve (fault : Fault)
  | tracking (fault : Fault)
  | sizing (fault : Fault)
  | makerShare
  | depthBand
  | barsPerDay
  | seed

namespace SettingsFlaw

def headline : SettingsFlaw → String
  | .unbuildable => "Failed to build configuration"
  | .unparsable => "Failed to parse configuration"
  | .unreadable => "Failed to deserialize configuration"
  | .unwritable => "Failed to serialize configuration"
  | .curve _ => "Invalid [curve] section"
  | .tracking _ => "Invalid [oracle] section"
  | .sizing _ => "Invalid [sizing] section"
  | .makerShare => "simulation.maker_share must be in (0, 1]"
  | .depthBand => "simulation.depth_band must be in (0, 1)"
  | .barsPerDay => "simulation.candles_per_day must be positive"
  | .seed => "seed balances and price_scale must be positive"

/-- The fault behind a flaw, if a market found it. -/
def cause? : SettingsFlaw → Option Fault
  | .curve fault => some fault
  | .tracking fault => some fault
  | .sizing fault => some fault
  | _ => none

end SettingsFlaw

/-! ## Tests -/

/-- Tests the settings of a replay. -/
def ReplayPlan.validate (p : ReplayPlan) : Except SettingsFlaw Unit :=
  if !(p.makerShare > 0 && p.makerShare ≤ 1) then .error .makerShare
  else if !(p.depthBand > 0 && p.depthBand < 1) then .error .depthBand
  else if !(p.barsPerDay > 0) then .error .barsPerDay
  else .ok ()

def Seed.validate (s : Seed) : Except SettingsFlaw Unit :=
  if s.quoteBalance > 0 && s.baseBalance > 0 && s.priceScale > 0 then .ok () else .error .seed

/-- Tests all settings, section by section; the first flaw is told. -/
def Settings.validate (s : Settings) : Except SettingsFlaw Unit := do
  s.curve.validate.mapError .curve
  s.tracking.validate.mapError .tracking
  s.sizing.validate.mapError .sizing
  s.plan.validate
  s.seed.validate

/-- The settings of a tree, tested. -/
def Settings.ofTree (tree : Settings.Tree) : Except SettingsFlaw Settings :=
  match Settings.ofTree? tree with
  | none => .error .unreadable
  | some s => do
    s.validate
    .ok s

end VirtualMarket
