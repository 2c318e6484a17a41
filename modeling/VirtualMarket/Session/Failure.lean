/-
VirtualMarket.Session.Failure — why a session ends early.

A failure has a headline, and behind it a fault where a market is the cause.
-/
import VirtualMarket.Replay.Candle
import VirtualMarket.Settings.Validate
import VirtualMarket.Text.Quoted

namespace VirtualMarket.Session

/-- The two kinds of input files. -/
inductive Input where
  | candles
  | snapshot
deriving Repr, DecidableEq

def Input.word : Input → String
  | .candles => "candles"
  | .snapshot => "snapshot"

/-- Why a session ends early. -/
inductive Failure where
  | settings (flaw : SettingsFlaw)
  /-- An input file cannot be read. -/
  | missing (input : Input) (file : String)
  /-- An input file has the wrong form. -/
  | malformed (input : Input) (file : String)
  | history (flaw : CandleFlaw)
  /-- A snapshot gives no pool. -/
  | snapshotPool (fault : Fault)
  /-- The deposit gives no pool. -/
  | seedPool (fault : Fault)
  /-- The report cannot be written. -/
  | report (file : String)

namespace Failure

def headline : Failure → String
  | .settings flaw => flaw.headline
  | .missing input file => "Failed to read " ++ input.word ++ " " ++ Text.quoted file
  | .malformed input file => "Failed to parse " ++ input.word ++ " " ++ Text.quoted file
  | .history flaw => flaw.message
  | .snapshotPool _ => "Failed to load pool from snapshot"
  | .seedPool _ => "Failed to bootstrap pool"
  | .report file => "Failed to write report " ++ Text.quoted file

/-- The fault behind a failure, if a market is the cause. -/
def cause? : Failure → Option Fault
  | .settings flaw => flaw.cause?
  | .snapshotPool fault => some fault
  | .seedPool fault => some fault
  | _ => none

/-- The headline, and the cause after a colon. -/
def message (f : Failure) : String :=
  match f.cause? with
  | some fault => f.headline ++ ": " ++ fault.message
  | none => f.headline

end Failure

end VirtualMarket.Session
