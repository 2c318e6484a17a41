/-
VirtualMarket.Proofs.Replay.Truncation — a shorter history gives a shorter report.

A replay knows nothing of the bars that are still to come.  Replaying a history
in two parts is therefore replaying the first, and from what it leaves the
second, unless the first has failed: then the second is never looked at.
-/
import VirtualMarket.Proofs.Market.History
import VirtualMarket.Proofs.Replay.Report
import VirtualMarket.Session.Basic

namespace VirtualMarket

namespace Replay

variable {r : Replay} {candles : List Candle}

/-! ## Two parts -/

/-- The second part of a history is replayed from what the first has left, if
the first has not failed. -/
theorem replayFrom_append (r : Replay) (index : Nat) (first rest : List Candle) (tally : Tally) :
    r.replayFrom index (first ++ rest) tally =
      match r.replayFrom index first tally with
      | (t, none) => r.replayFrom (index + first.length) rest t
      | (t, some fault) => (t, some fault) := by
  induction first generalizing index tally with
  | nil => rfl
  | cons c first ih =>
    rw [List.cons_append]
    cases h : r.step ⟨index, c, tally.pool⟩ with
    | error fault =>
      rw [replayFrom_cons_of_error h, replayFrom_cons_of_error h]
    | ok row =>
      rw [replayFrom_cons_of_ok h, replayFrom_cons_of_ok h, ih, List.length_cons]
      simp only [Nat.add_right_comm, Nat.add_assoc]

/-- Replaying on leaves the rows that there are. -/
theorem suffix_replayFrom (r : Replay) (index : Nat) (candles : List Candle) (tally : Tally) :
    tally.rows <:+ (r.replayFrom index candles tally).1.rows := by
  obtain ⟨fresh, -, hrows, -⟩ := (r.adds_replayFrom index candles tally).rows
  exact ⟨fresh.reverse, hrows.symm⟩

/-! ## Runs -/

theorem run_eq (r : Replay) (candles : List Candle) :
    r.run candles =
      ((r.replayFrom 0 candles { pool := r.pool }).1.report
          (r.replayFrom 0 candles { pool := r.pool }).2,
        (r.replayFrom 0 candles { pool := r.pool }).1.pool) := rfl

/-- A run that fails on a history is the run on every longer one. -/
theorem run_append_of_error (h : (r.run candles).1.summary.error ≠ none) (rest : List Candle) :
    r.run (candles ++ rest) = r.run candles := by
  rw [run_eq] at h
  rw [run_eq, run_eq, replayFrom_append]
  cases hr : r.replayFrom 0 candles { pool := r.pool } with | mk tally fault
  rw [hr] at h
  cases fault with
  | none => exact absurd rfl h
  | some fault => rfl

/-- The rows of a run are the first of those on every longer history. -/
theorem rows_prefix_append (r : Replay) (candles rest : List Candle) :
    (r.run candles).1.rows <+: (r.run (candles ++ rest)).1.rows := by
  rw [run_eq, run_eq, replayFrom_append]
  cases r.replayFrom 0 candles { pool := r.pool } with | mk tally fault
  cases fault with
  | none => exact List.reverse_prefix.mpr (r.suffix_replayFrom _ rest tally)
  | some fault => exact List.prefix_rfl

/-- A run has a row for every bar, or fewer if it fails. -/
theorem length_rows (r : Replay) (candles : List Candle) :
    (r.run candles).1.rows.length ≤ candles.length ∧
      ((r.run candles).1.summary.error = none →
        (r.run candles).1.rows.length = candles.length) := by
  have h : r.Tells candles _ (r.run candles).1 _ :=
    (r.adds_replayFrom 0 candles { pool := r.pool }).tells
  rw [h.length, h.complete, ← r.length_bars candles]
  exact ⟨List.findIdx_le_length, id⟩

/-- The rows on the first bars of a history are the first rows. -/
theorem rows_take (r : Replay) (candles : List Candle) (n : Nat) :
    (r.run (candles.take n)).1.rows = (r.run candles).1.rows.take n := by
  obtain ⟨hle, hcomplete⟩ := r.length_rows (candles.take n)
  have hstart := r.rows_prefix_append (candles.take n) (candles.drop n)
  have hsame (h : (r.run (candles.take n)).1.summary.error ≠ none) :=
    run_append_of_error h (candles.drop n)
  rw [List.take_append_drop] at hstart hsame
  rw [List.length_take] at hle hcomplete
  cases herror : (r.run (candles.take n)).1.summary.error with
  | some text =>
    -- the run has failed early, and its rows are all there are
    rw [hsame (by simp [herror])]
    exact (List.take_of_length_le (by omega)).symm
  | none =>
    rcases Nat.le_total n candles.length with hn | hn
    · rw [Nat.min_eq_left hn] at hcomplete
      rw [List.prefix_iff_eq_take.mp hstart, hcomplete herror]
    · rw [List.take_of_length_le hn, List.take_of_length_le]
      exact Nat.le_trans (r.length_rows candles).1 hn

end Replay

/-! ## Sessions -/

/-- Asking a session for the first bars cuts its rows, and changes none. -/
theorem Session.rows_run_take (files : Files) (s : Settings) (snapshot : Option String)
    (history : String) (n : Nat) :
    (Session.run files s snapshot history (some n)).map Report.rows =
      (Session.run files s snapshot history none).map (·.rows.take n) := by
  unfold Session.run
  cases snapshot.mapM (readSnapshot files) with
  | error failure => rfl
  | ok raw =>
    cases hp : buildPool s raw with
    | error failure => simp [bind, Except.bind, hp, Except.map]
    | ok pool =>
      cases hc : readCandles files history with
      | error failure => simp [bind, Except.bind, hp, Except.map]
      | ok candles =>
        simp [bind, Except.bind, hp, Except.map, replay, Replay.rows_take]

/-- A replay of a history is where a replay of a longer one has come to: its
rows are the first of that one, all that its bars can give if it has not failed,
and if it has failed the longer replay is the same to the pool that is left.  So
a session that is asked for the first bars cuts the rows of the full one. -/
theorem Replay.truncation (r : Replay) (candles rest : List Candle) :
    (r.run candles).1.rows <+: (r.run (candles ++ rest)).1.rows ∧
      ((r.run candles).1.summary.error = none →
        candles.length ≤ (r.run (candles ++ rest)).1.rows.length ∧
          (r.run (candles ++ rest)).1.rows.take candles.length = (r.run candles).1.rows) ∧
      ((r.run candles).1.summary.error ≠ none → r.run (candles ++ rest) = r.run candles) ∧
      ∀ files s snapshot history n,
        (Session.run files s snapshot history (some n)).map Report.rows =
          (Session.run files s snapshot history none).map (·.rows.take n) := by
  have hstart := r.rows_prefix_append candles rest
  refine ⟨hstart, fun h => ?_, fun h => run_append_of_error h rest, Session.rows_run_take⟩
  have hlength := (r.length_rows candles).2 h
  refine ⟨hlength ▸ hstart.length_le, ?_⟩
  rw [← hlength]
  exact (List.prefix_iff_eq_take.mp hstart).symm

/-- A bar at a price of zero fails, and with it every history that it begins. -/
theorem Replay.truncation_zero_price :
    let r : Replay := .new Pool.even {} {}
    r.run [⟨0, 0, 0, 0, 0⟩, ⟨60, 1, 1, 1, 1⟩] = r.run [⟨0, 0, 0, 0, 0⟩] := by
  intro r
  obtain ⟨-, -, hsame, -⟩ := r.truncation [⟨0, 0, 0, 0, 0⟩] [⟨60, 1, 1, 1, 1⟩]
  exact hsame (by decide +kernel)

end VirtualMarket
