/-
VirtualMarket.Proofs.Replay.Bars — a replay as a list of bars and deals.

A replay adds up its trades and throws them away.  Here they are kept: each
trade that was made is a deal, with the pool before it and the pool after it,
and each bar knows the pool that it finds.  The totals of a bar are those of its
deals, and the pool it leaves is the one that their sizes, executed one after
another, lead to.
-/
import VirtualMarket.Proofs.Outcome
import VirtualMarket.Replay.Run

namespace VirtualMarket.Replay

/-! ## Deals -/

/-- A trade on the way to a target. -/
structure Deal where
  target : Float
  size : Float
  before : Pool
  execution : Execution
  after : Pool

/-- The trade was sized for its target, is not void, and was executed. -/
structure Deal.Made (sizing : Sizing) (d : Deal) : Prop where
  sized : sizing.sizeToTarget d.before.venue d.target = .ok d.size
  notVoid : (d.size == 0) = false
  executed : execute d.before d.size = .ok (d.execution, d.after)

/-- The deal that brings a pool to a target, if one is needed. -/
def dealTo (sizing : Sizing) (p : Pool) (target : Float) : Outcome (Option Deal) := do
  let size ← sizing.sizeToTarget p.venue target
  if size == 0 then .ok none
  else
    let (execution, after) ← execute p size
    .ok (some ⟨target, size, p, execution, after⟩)

/-- Adds a deal to the trades of its bar. -/
def Traded.add (t : Traded) (d : Deal) : Traded where
  pool := d.after
  trades := t.trades + 1
  volume := t.volume + d.execution.amount
  slippage := t.slippage + (d.execution.price - d.before.markPrice).abs * 100 / d.before.markPrice

theorem made_of_dealTo {sizing : Sizing} {p : Pool} {target : Float} {d : Deal}
    (h : dealTo sizing p target = .ok (some d)) :
    d.Made sizing ∧ d.before = p ∧ d.target = target := by
  obtain ⟨size, hs, h⟩ := Outcome.bind_eq_ok.mp h
  split at h
  · cases h
  · rename_i hv
    obtain ⟨⟨execution, after⟩, he, h⟩ := Outcome.bind_eq_ok.mp h
    cases h
    exact ⟨⟨hs, by simpa using hv, he⟩, rfl, rfl⟩

/-- Trading to a target is finding its deal and adding it. -/
theorem tradeTo_eq (sizing : Sizing) (t : Traded) (target : Float) :
    tradeTo sizing t target =
      (dealTo sizing t.pool target).map fun deal => deal.elim t t.add := by
  unfold tradeTo dealTo
  cases sizing.sizeToTarget t.pool.venue target with
  | error fault => rfl
  | ok size =>
    cases hv : size == 0 with
    | true => simp [bind, Except.bind, hv, Except.map]
    | false =>
      cases he : execute t.pool size <;>
        simp [bind, Except.bind, hv, he, Except.map, Traded.add]

/-! ## Paths -/

/-- The deals along a path of targets, up to the first fault. -/
def dealsAlong (sizing : Sizing) : List Float → Pool → List Deal × Option Fault
  | [], _ => ([], none)
  | target :: rest, p =>
    match dealTo sizing p target with
    | .error fault => ([], some fault)
    | .ok none => dealsAlong sizing rest p
    | .ok (some d) =>
      let (ds, fault) := dealsAlong sizing rest d.after
      (d :: ds, fault)

/-- Executes signed sizes one after another. -/
def executeAll (p : Pool) (sizes : List Float) : Outcome Pool :=
  sizes.foldlM (fun p size => (execute p size).map Prod.snd) p

theorem executeAll_append {p q : Pool} {first rest : List Float}
    (h : executeAll p first = .ok q) : executeAll p (first ++ rest) = executeAll q rest := by
  unfold executeAll at h ⊢
  rw [List.foldlM_append, h]
  rfl

theorem Deal.Made.executeAll_cons {sizing : Sizing} {d : Deal} (h : d.Made sizing)
    (sizes : List Float) : executeAll d.before (d.size :: sizes) = executeAll d.after sizes := by
  simp only [executeAll, List.foldlM_cons, h.executed]
  rfl

section

variable {sizing : Sizing} {targets : List Float}

/-- Trading along a path adds up its deals. -/
theorem tradeAlong_eq (sizing : Sizing) (targets : List Float) (t : Traded) :
    tradeAlong sizing targets t =
      ((dealsAlong sizing targets t.pool).1.foldl Traded.add t,
        (dealsAlong sizing targets t.pool).2) := by
  induction targets generalizing t with
  | nil => rfl
  | cons target rest ih =>
    unfold tradeAlong dealsAlong
    rw [tradeTo_eq]
    cases dealTo sizing t.pool target with
    | error fault => rfl
    | ok deal =>
      cases deal with
      | none => exact ih t
      | some d => exact ih (t.add d)

/-- The sizes of the deals lead to the pool that trading along the path leaves. -/
theorem executeAll_dealsAlong (sizing : Sizing) (targets : List Float) (t : Traded) :
    executeAll t.pool ((dealsAlong sizing targets t.pool).1.map Deal.size)
      = .ok (tradeAlong sizing targets t).1.pool := by
  induction targets generalizing t with
  | nil => rfl
  | cons target rest ih =>
    unfold tradeAlong dealsAlong
    rw [tradeTo_eq]
    cases hd : dealTo sizing t.pool target with
    | error fault => rfl
    | ok deal =>
      cases deal with
      | none => exact ih t
      | some d =>
        obtain ⟨hmade, hbefore, -⟩ := made_of_dealTo hd
        rw [← hbefore]
        exact (hmade.executeAll_cons _).trans (ih (t.add d))

theorem made_of_mem_dealsAlong {p : Pool} {d : Deal} (h : d ∈ (dealsAlong sizing targets p).1) :
    d.Made sizing ∧ d.target ∈ targets := by
  induction targets generalizing p with
  | nil => cases h
  | cons target rest ih =>
    have tail {q : Pool} (h : d ∈ (dealsAlong sizing rest q).1) :
        d.Made sizing ∧ d.target ∈ target :: rest :=
      (ih h).imp_right (List.mem_cons_of_mem _)
    unfold dealsAlong at h
    cases hd : dealTo sizing p target with
    | error fault => simp [hd] at h
    | ok deal =>
      cases deal with
      | none => exact tail (by simpa [hd] using h)
      | some d' =>
        obtain ⟨hmade, -, htarget⟩ := made_of_dealTo hd
        rcases List.mem_cons.mp (by simpa [hd] using h) with rfl | h
        · exact ⟨hmade, htarget ▸ List.mem_cons_self⟩
        · exact tail h

/-- A path has at most one deal for each of its targets. -/
theorem length_dealsAlong_le (sizing : Sizing) (targets : List Float) (p : Pool) :
    (dealsAlong sizing targets p).1.length ≤ targets.length := by
  induction targets generalizing p with
  | nil => exact Nat.le_refl 0
  | cons target rest ih =>
    unfold dealsAlong
    cases dealTo sizing p target with
    | error fault => exact Nat.zero_le _
    | ok deal =>
      cases deal with
      | none => exact Nat.le_succ_of_le (ih p)
      | some d => exact Nat.succ_le_succ (ih d.after)

theorem trades_foldl_add (ds : List Deal) (t : Traded) :
    (ds.foldl Traded.add t).trades = t.trades + ds.length := by
  induction ds generalizing t with
  | nil => rfl
  | cons d ds ih =>
    rw [List.foldl_cons, ih, List.length_cons]
    simp only [Traded.add]
    omega

end

/-! ## Bars -/

/-- A bar of a replay, and the pool that it finds.  `index` counts the bars
before it. -/
structure Bar where
  index : Nat
  candle : Candle
  before : Pool

variable (r : Replay)

/-- The trades of a bar, up to the first fault. -/
def traded (b : Bar) : Traded × Option Fault :=
  tradeAlong r.sizing (b.candle.targets r.plan.closeOnly) { pool := b.before }

/-- The deals of a bar, up to the first fault. -/
def deals (b : Bar) : List Deal :=
  (dealsAlong r.sizing (b.candle.targets r.plan.closeOnly) b.before).1

/-- The row of a bar, or the fault of its trades or of its row. -/
def step (b : Bar) : Outcome ReportRow :=
  match r.traded b with
  | (_, some fault) => .error fault
  | (t, none) => r.rowOf b.index b.candle t

/-- The bars of a history, from the one numbered `index` on.  Each finds the
pool that the one before has left, even if that one has failed. -/
def barsFrom (index : Nat) (p : Pool) : List Candle → List Bar
  | [] => []
  | c :: rest =>
    let b : Bar := ⟨index, c, p⟩
    b :: barsFrom (index + 1) (r.traded b).1.pool rest

def bars (candles : List Candle) : List Bar :=
  r.barsFrom 0 r.pool candles

/-- The number of bars before the first that fails. -/
def stop (bs : List Bar) : Nat :=
  bs.findIdx fun b => !(r.step b).isOk

/-- The deals of a replay: those of the bars before the first that fails, and
those that it has made until then. -/
def trades (candles : List Candle) : List Deal :=
  ((r.bars candles).take (r.stop (r.bars candles) + 1)).flatMap r.deals

variable {r} {b : Bar} {row : ReportRow} {fault : Fault}

/-- A row carries the time and the close of its bar. -/
theorem row_of_step (h : r.step b = .ok row) :
    row.time = b.candle.time ∧ row.closePrice = b.candle.closePrice := by
  unfold step at h
  split at h
  · cases h
  · obtain ⟨maker, -, h⟩ := Outcome.bind_eq_ok.mp h
    obtain ⟨depth, -, h⟩ := Outcome.bind_eq_ok.mp h
    cases h
    exact ⟨rfl, rfl⟩

theorem trades_traded (r : Replay) (b : Bar) : (r.traded b).1.trades = (r.deals b).length := by
  rw [traded, tradeAlong_eq, trades_foldl_add]
  exact Nat.zero_add _

theorem executeAll_deals (r : Replay) (b : Bar) :
    executeAll b.before ((r.deals b).map Deal.size) = .ok (r.traded b).1.pool :=
  executeAll_dealsAlong r.sizing _ { pool := b.before }

theorem length_deals_le (r : Replay) (b : Bar) :
    (r.deals b).length ≤ if r.plan.closeOnly then 1 else 4 := by
  refine Nat.le_trans (length_dealsAlong_le _ _ _) ?_
  unfold Candle.targets
  split
  · exact Nat.le_refl 1
  · split <;> exact Nat.le_refl 4

theorem map_candle_barsFrom (r : Replay) (index : Nat) (p : Pool) (candles : List Candle) :
    (r.barsFrom index p candles).map Bar.candle = candles := by
  induction candles generalizing index p with
  | nil => rfl
  | cons c rest ih => exact congrArg (c :: ·) (ih _ _)

/-- The bars of a replay are those of its history. -/
theorem map_candle_bars (r : Replay) (candles : List Candle) :
    (r.bars candles).map Bar.candle = candles :=
  r.map_candle_barsFrom 0 r.pool candles

theorem made_of_mem_trades {candles : List Candle} {d : Deal} (h : d ∈ r.trades candles) :
    d.Made r.sizing ∧ ∃ c ∈ candles, d.target ∈ c.targets r.plan.closeOnly := by
  obtain ⟨b, hb, hd⟩ := List.mem_flatMap.mp h
  obtain ⟨hmade, htarget⟩ := made_of_mem_dealsAlong hd
  refine ⟨hmade, b.candle, ?_, htarget⟩
  rw [← r.map_candle_bars candles]
  exact List.mem_map_of_mem (List.mem_of_mem_take hb)

/-! ## Stops -/

theorem stop_cons_of_error (h : r.step b = .error fault) (bs : List Bar) :
    r.stop (b :: bs) = 0 := by
  simp [stop, List.findIdx_cons, h, Except.isOk, Except.toBool]

theorem stop_cons_of_ok (h : r.step b = .ok row) (bs : List Bar) :
    r.stop (b :: bs) = r.stop bs + 1 := by
  simp [stop, List.findIdx_cons, h, Except.isOk, Except.toBool]

/-! ## Replays -/

/-- The totals after a bar that has come to its end. -/
def Tally.note (tally : Tally) (t : Traded) (row : ReportRow) : Tally where
  pool := t.pool
  rows := row :: tally.rows
  trades := tally.trades + t.trades
  volume := tally.volume + row.volume
  slippage := tally.slippage + t.slippage

/-- A bar that fails keeps its trades and ends the replay. -/
theorem replayFrom_cons_of_error {index : Nat} {c : Candle} {rest : List Candle} {tally : Tally}
    (h : r.step ⟨index, c, tally.pool⟩ = .error fault) :
    r.replayFrom index (c :: rest) tally =
      ({ tally with pool := (r.traded ⟨index, c, tally.pool⟩).1.pool }, some fault) := by
  unfold step at h
  unfold replayFrom
  rw [traded] at h ⊢
  split at h
  · rename_i t f ht
    cases h
    rw [ht]
  · rename_i t ht
    rw [ht]
    simp only at h ⊢
    rw [h]

/-- A bar that comes to its end is noted, and the replay goes on. -/
theorem replayFrom_cons_of_ok {index : Nat} {c : Candle} {rest : List Candle} {tally : Tally}
    (h : r.step ⟨index, c, tally.pool⟩ = .ok row) :
    r.replayFrom index (c :: rest) tally =
      r.replayFrom (index + 1) rest
        (tally.note (r.traded ⟨index, c, tally.pool⟩).1 row) := by
  unfold step at h
  rw [replayFrom]
  rw [traded] at h ⊢
  split at h
  · cases h
  · rename_i t ht
    rw [ht]
    simp only at h ⊢
    rw [h]
    rfl

end VirtualMarket.Replay
