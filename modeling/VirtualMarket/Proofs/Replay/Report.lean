/-
VirtualMarket.Proofs.Replay.Report — a report tells what happened.

A bar can fail in the middle of its path, or only when its maker is valued, with
trades already made.  The report leaves such a bar out, the pool does not: rows
and totals stop before the first bar that fails, the trades go on into it.
-/
import VirtualMarket.Proofs.Replay.Bars

namespace VirtualMarket.Replay

variable {r : Replay} {bs : List Bar} {candles : List Candle}

/-! ## Lists of bars -/

theorem length_bars (r : Replay) (candles : List Candle) :
    (r.bars candles).length = candles.length := by
  rw [← List.length_map Bar.candle, map_candle_bars]

theorem map_take_bars {α : Type} (r : Replay) (candles : List Candle) (k : Nat) (f : Candle → α) :
    ((r.bars candles).take k).map (fun b => f b.candle) = (candles.take k).map f := by
  have h := congrArg (fun cs => (cs.take k).map f) (r.map_candle_bars candles)
  rwa [← List.map_take, List.map_map] at h

/-- Rows that bars have given carry their times and closes. -/
theorem told_of_steps {rows : List ReportRow} (h : bs.map r.step = rows.map .ok) :
    rows.map ReportRow.time = bs.map (·.candle.time) ∧
      rows.map ReportRow.closePrice = bs.map (·.candle.closePrice) := by
  induction rows generalizing bs with
  | nil =>
    obtain rfl : bs = [] := by simpa using h
    exact ⟨rfl, rfl⟩
  | cons row rows ih =>
    obtain ⟨b, rest, rfl, hb, hrest⟩ := List.map_eq_cons_iff.mp h
    obtain ⟨htime, hclose⟩ := row_of_step hb
    obtain ⟨htimes, hcloses⟩ := ih hrest
    simp [htime, hclose, htimes, hcloses]

theorem length_flatMap_deals_le (r : Replay) (bs : List Bar) :
    (bs.flatMap r.deals).length ≤ (if r.plan.closeOnly then 1 else 4) * bs.length := by
  induction bs with
  | nil => simp
  | cons b bs ih =>
    have := r.length_deals_le b
    rw [List.flatMap_cons, List.length_append, List.length_cons, Nat.mul_succ]
    omega

/-- The bar at a place is that of its candle, and it finds the pool that the
deals of the bars before it lead to. -/
theorem getElem?_barsFrom {index i : Nat} {p : Pool} {b : Bar}
    (h : (r.barsFrom index p candles)[i]? = some b) :
    b.index = index + i ∧ candles[i]? = some b.candle ∧
      executeAll p ((((r.barsFrom index p candles).take i).flatMap r.deals).map Deal.size)
        = .ok b.before := by
  induction candles generalizing index i p with
  | nil => simp [barsFrom] at h
  | cons c rest ih =>
    unfold barsFrom at h ⊢
    cases i with
    | zero =>
      obtain rfl : ⟨index, c, p⟩ = b := by simpa using h
      exact ⟨rfl, rfl, rfl⟩
    | succ i =>
      obtain ⟨hindex, hcandle, hpool⟩ := ih (by simpa using h)
      refine ⟨by omega, by simpa using hcandle, ?_⟩
      rw [List.take_succ_cons, List.flatMap_cons, List.map_append]
      exact (executeAll_append (r.executeAll_deals _)).trans hpool

theorem getElem?_bars {i : Nat} {b : Bar} (h : (r.bars candles)[i]? = some b) :
    b.index = i ∧ candles[i]? = some b.candle ∧
      executeAll r.pool ((((r.bars candles).take i).flatMap r.deals).map Deal.size)
        = .ok b.before := by
  have := getElem?_barsFrom h
  rwa [Nat.zero_add] at this

/-! ## Totals -/

/-- What replaying bars adds to the totals that it starts from. -/
structure Adds (r : Replay) (bs : List Bar) (old new : Tally) (fault : Option Fault) : Prop where
  rows : ∃ fresh : List ReportRow, (bs.take (r.stop bs)).map r.step = fresh.map .ok ∧
    new.rows = fresh.reverse ++ old.rows ∧
    new.volume = fresh.foldl (fun volume row => volume + row.volume) old.volume
  trades : new.trades = old.trades + ((bs.take (r.stop bs)).flatMap r.deals).length
  fault : bs[r.stop bs]?.map r.step = fault.map .error
  pool : executeAll old.pool (((bs.take (r.stop bs + 1)).flatMap r.deals).map Deal.size)
    = .ok new.pool

protected theorem Adds.nil (r : Replay) (tally : Tally) : r.Adds [] tally tally none where
  rows := ⟨[], rfl, rfl, rfl⟩
  trades := rfl
  fault := rfl
  pool := rfl

/-- A bar that fails adds its trades to the pool and nothing to the totals. -/
theorem Adds.of_error {b : Bar} {tally : Tally} {fault : Fault} (hb : b.before = tally.pool)
    (h : r.step b = .error fault) (bs : List Bar) :
    r.Adds (b :: bs) tally { tally with pool := (r.traded b).1.pool } (some fault) := by
  have hstop := stop_cons_of_error h bs
  refine ⟨⟨[], ?_, rfl, rfl⟩, ?_, ?_, ?_⟩ <;> rw [hstop]
  · rfl
  · rfl
  · simp [h]
  · rw [← hb]
    simpa using r.executeAll_deals b

/-- A bar that comes to its end adds its row and its trades. -/
theorem Adds.of_ok {b : Bar} {tally new : Tally} {row : ReportRow} {fault : Option Fault}
    (hb : b.before = tally.pool) (h : r.step b = .ok row)
    (hrest : r.Adds bs (tally.note (r.traded b).1 row) new fault) :
    r.Adds (b :: bs) tally new fault := by
  have hstop := stop_cons_of_ok h bs
  obtain ⟨fresh, hsteps, hrows, hvolume⟩ := hrest.rows
  refine ⟨⟨row :: fresh, ?_, ?_, hvolume⟩, ?_, ?_, ?_⟩
  · rw [hstop, List.take_succ_cons, List.map_cons, List.map_cons, h, hsteps]
  · simpa [Tally.note] using hrows
  · rw [hrest.trades, hstop, List.take_succ_cons, List.flatMap_cons, List.length_append,
      ← r.trades_traded b]
    exact Nat.add_assoc _ _ _
  · rw [hstop, List.getElem?_cons_succ]
    exact hrest.fault
  · rw [hstop, List.take_succ_cons, List.flatMap_cons, List.map_append, ← hb]
    exact (executeAll_append (r.executeAll_deals b)).trans hrest.pool

theorem adds_replayFrom (r : Replay) (index : Nat) (candles : List Candle) (tally : Tally) :
    r.Adds (r.barsFrom index tally.pool candles) tally
      (r.replayFrom index candles tally).1 (r.replayFrom index candles tally).2 := by
  induction candles generalizing index tally with
  | nil => exact .nil r tally
  | cons c rest ih =>
    cases h : r.step ⟨index, c, tally.pool⟩ with
    | error fault =>
      rw [replayFrom_cons_of_error h]
      exact .of_error rfl h _
    | ok row =>
      rw [replayFrom_cons_of_ok h]
      exact .of_ok rfl h (ih (index + 1) (tally.note _ row))

variable {old new : Tally} {fault : Option Fault}

/-- There is a fault unless all bars have come to their end. -/
theorem Adds.fault_eq_none_iff (h : r.Adds bs old new fault) :
    fault = none ↔ r.stop bs = bs.length := by
  have hle : r.stop bs ≤ bs.length := List.findIdx_le_length
  have hnone : bs[r.stop bs]? = none ↔ fault = none := by
    rw [← Option.map_eq_none_iff (f := r.step), h.fault, Option.map_eq_none_iff]
  rw [← hnone, List.getElem?_eq_none_iff]
  omega

/-- The fault is that of the bar at which the replay stopped. -/
theorem Adds.fault_eq_some (h : r.Adds bs old new fault) {b : Bar} (hb : bs[r.stop bs]? = some b) :
    ∃ cause, r.step b = .error cause ∧ fault = some cause := by
  have hfault := h.fault
  rw [hb] at hfault
  cases fault with
  | none => cases hfault
  | some cause => exact ⟨cause, Option.some.inj hfault, rfl⟩

/-! ## Reports -/

/-- What a report and the pool that is left tell of a replay whose first `k`
bars come to their end. -/
structure Tells (r : Replay) (candles : List Candle) (k : Nat) (report : Report) (left : Pool) :
    Prop where
  /-- A bar is that of its candle, and finds the pool that the deals before it
  lead to. -/
  bar : ∀ i b, (r.bars candles)[i]? = some b → b.index = i ∧ candles[i]? = some b.candle ∧
    executeAll r.pool ((((r.bars candles).take i).flatMap r.deals).map Deal.size) = .ok b.before
  rows : ((r.bars candles).take k).map r.step = report.rows.map .ok
  length : report.rows.length = k
  count : report.summary.candles = k
  times : report.rows.map ReportRow.time = (candles.take k).map Candle.time
  closes : report.rows.map ReportRow.closePrice = (candles.take k).map Candle.closePrice
  volume : report.summary.volume = report.rows.foldl (fun volume row => volume + row.volume) 0
  trades : report.summary.trades = (((r.bars candles).take k).flatMap r.deals).length
  /-- Every target of a bar is traded to once at most. -/
  bounded : report.summary.trades ≤ (if r.plan.closeOnly then 1 else 4) * k
  slippage : report.summary.trades = 0 → report.summary.meanSlippage = 0
  complete : report.summary.error = none ↔ k = candles.length
  /-- The words of the error are those of the fault of the bar that failed. -/
  error : ∀ b, (r.bars candles)[k]? = some b →
    ∃ fault, r.step b = .error fault ∧ report.summary.error = some fault.message
  /-- The deals, those of the bar that failed included, were made, and their
  sizes executed one after another lead to the pool that is left. -/
  made : ∀ d ∈ r.trades candles, d.Made r.sizing
  pool : executeAll r.pool ((r.trades candles).map Deal.size) = .ok left

/-- Totals of all bars make a report that tells what happened. -/
theorem Adds.tells {tally : Tally} {fault : Option Fault}
    (h : r.Adds (r.bars candles) { pool := r.pool } tally fault) :
    r.Tells candles (r.stop (r.bars candles)) (tally.report fault) tally.pool := by
  have hle : r.stop (r.bars candles) ≤ (r.bars candles).length := List.findIdx_le_length
  obtain ⟨fresh, hsteps, hfresh, hvolume⟩ := h.rows
  have hrows : (tally.report fault).rows = fresh := by
    simp [Tally.report, hfresh]
  have hlength : fresh.length = r.stop (r.bars candles) := by
    simpa [hle] using (congrArg List.length hsteps).symm
  obtain ⟨htimes, hcloses⟩ := told_of_steps hsteps
  have htrades := h.trades.trans (Nat.zero_add _)
  refine
    { bar := fun i b => getElem?_bars
      rows := by rw [hrows, hsteps]
      length := by rw [hrows, hlength]
      count := by simp [Tally.report, hfresh, hlength]
      times := by rw [hrows, htimes, map_take_bars]
      closes := by rw [hrows, hcloses, map_take_bars]
      volume := by rw [hrows, ← hvolume]; rfl
      trades := htrades
      bounded := ?_
      slippage := ?_
      complete := ?_
      error := ?_
      made := fun d hd => (made_of_mem_trades hd).1
      pool := h.pool }
  · have := r.length_flatMap_deals_le ((r.bars candles).take (r.stop (r.bars candles)))
    rwa [List.length_take_of_le hle, ← htrades] at this
  · intro hnone
    change tally.trades = 0 at hnone
    simp [Tally.report, hnone]
  · change fault.map Fault.message = none ↔ _
    rw [Option.map_eq_none_iff, h.fault_eq_none_iff, length_bars]
  · intro b hb
    obtain ⟨cause, hstep, rfl⟩ := h.fault_eq_some hb
    exact ⟨cause, hstep, rfl⟩

end VirtualMarket.Replay
