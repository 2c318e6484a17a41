/-
VirtualMarket.Session.Basic — replays from files.

A session reads a snapshot and a history, sets up a pool from its settings and
replays the history against it.
-/
import VirtualMarket.Files
import VirtualMarket.Session.Failure
import VirtualMarket.Settings.Load
import VirtualMarket.Snapshot.Export
import VirtualMarket.Replay.History

namespace VirtualMarket.Session

/-! ## Inputs -/

/-- Reads an input file by its reader. -/
def readInput {α : Type} (files : Files) (input : Input) (file : String)
    (read? : String → Option α) : Except Failure α :=
  match files.read? (.ofString file) with
  | none => .error (.missing input file)
  | some text =>
    match read? text with
    | none => .error (.malformed input file)
    | some value => .ok value

def readSnapshot (files : Files) (file : String) : Except Failure RawSnapshot :=
  readInput files .snapshot file RawSnapshot.read?

/-- Reads a history and tests it. -/
def readCandles (files : Files) (file : String) : Except Failure (List Candle) := do
  let candles ← readInput files .candles file readHistory?
  (validateCandles candles).mapError .history
  .ok candles

/-! ## Replaying -/

/-- The pool of a snapshot, or of the deposit if there is none. -/
def buildPool (s : Settings) (snapshot : Option RawSnapshot) : Except Failure Pool :=
  match snapshot with
  | some raw => (Pool.ofSnapshot s.curve s.tracking raw).mapError .snapshotPool
  | none =>
    (Pool.bootstrap s.curve s.tracking s.seed.reserves s.seed.priceScale s.seed.startTime).mapError
      .seedPool

/-- The report of a history that is replayed against a pool. -/
def replay (s : Settings) (pool : Pool) (candles : List Candle) : Report :=
  ((Replay.new pool s.sizing s.plan).run candles).1

/-- Replays the first `limit` bars of a history file, or all of them.  The
snapshot and the pool come before the history, so their failures do, too. -/
def run (files : Files) (s : Settings) (snapshot : Option String) (history : String)
    (limit : Option Nat) : Except Failure Report := do
  let raw ← snapshot.mapM (readSnapshot files)
  let pool ← buildPool s raw
  let candles ← readCandles files history
  let candles := match limit with
    | some n => candles.take n
    | none => candles
  .ok (replay s pool candles)

end VirtualMarket.Session
