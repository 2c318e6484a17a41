/-
VirtualMarket.Proofs.Market.Latch — when the peg moves.

The latch is written where an update closes, set by a move of the peg and reset
by everything else, so it remembers whether the last successful update moved
the peg.  A move needs the latch or a profit above the cushion; hence moves
come in blocks, and the first of a block was paid for by profit.
-/
import VirtualMarket.Proofs.Market.History

namespace VirtualMarket

/-! ## One update -/

/-- The virtual price at invariant `d` with the peg left alone; a market that
has none starts at one. -/
def State.unmovedVirtualPrice (s : State) (d : Float) : Float :=
  if 0 < s.virtualPrice then virtualPriceAt d s.priceScale s.totalSupply else 1

/-- The profit at the old peg exceeds the counter by more than the cushion. -/
def Curve.ExceedsCushion (c : Curve) (s : State) (supplied : Option Float) (profit : Float) :
    Prop :=
  ∃ d, c.unadjustedInvariant s.scaledReserves supplied = .ok d ∧
    profit + 2 * s.profitCushion < s.unmovedVirtualPrice d * 2 - 1

/-- What a successful update says about peg and latch.  The distance is that of
the new oracle price from the old peg. -/
structure Curve.LatchStep (c : Curve) (s : State) (supplied : Option Float) (now : Int)
    (move : PegMove) (s' : State) : Prop where
  oracle : s'.priceOracle = (s.advanceOracle now).priceOracle
  pending_iff : move.isMoved = true ↔ s'.latch = .pending
  moved : ∀ old new, move = .moved old new →
    old = s.priceScale ∧ new = s'.priceScale ∧ 0 < s.virtualPrice ∧
      Decimal.larger s.minimumStep ((s'.priceOracle / s.priceScale - 1).abs / 10)
        < (s'.priceOracle / s.priceScale - 1).abs ∧
      (s.latch = .pending ∨ c.ExceedsCushion s supplied s'.profit)
  stays : move.isMoved = false →
    s'.priceScale = s.priceScale ∧ s'.latch = .settled ∧
      ∃ d, c.unadjustedInvariant s.scaledReserves supplied = .ok d ∧ s'.invariant = d ∧
        s'.virtualPrice = s.unmovedVirtualPrice d

theorem Curve.Finds.virtualPrice_eq {c : Curve} {s : State} {tradePrice supplied : Option Float}
    {d lastPrice virtualPrice profit : Float}
    (h : c.Finds s tradePrice supplied d lastPrice virtualPrice profit) :
    virtualPrice = s.unmovedVirtualPrice d := by
  unfold State.unmovedVirtualPrice
  rcases State.profitAt_eq_ok h.profit with ⟨hv, rfl, -⟩ | ⟨hv, rfl, -⟩
  · rw [if_pos hv]
  · rw [if_neg hv]

theorem Curve.Updates.latchStep {c : Curve} {s s' : State} {tradePrice supplied : Option Float}
    {now : Int} {move : PegMove} (h : c.Updates s tradePrice supplied now move s') :
    c.LatchStep s supplied now move s' := by
  obtain ⟨oracle, time, ho⟩ := s.advanceOracle_frame now
  cases h with
  | unchanged found | discarded found =>
    have hv := found.virtualPrice_eq
    refine ⟨rfl, ⟨nofun, nofun⟩, nofun, fun _ => ?_⟩
    rw [ho]
    exact ⟨rfl, rfl, _, found.invariant, rfl, hv⟩
  | moved found wants solved keeps =>
    have hv := found.virtualPrice_eq
    obtain ⟨hd, h0, hl⟩ := State.wantsMove_iff.mp wants
    refine ⟨rfl, ⟨fun _ => rfl, fun _ => rfl⟩, fun old new he => ?_, nofun⟩
    cases he
    refine ⟨rfl, rfl, ?_⟩
    rw [ho] at hd h0 hl ⊢
    refine ⟨h0, hd, hl.imp_right fun hp => ⟨_, found.invariant, ?_⟩⟩
    rw [← hv]
    exact hp

/-! ## Runs -/

/-- What a change says about peg and latch. -/
theorem Change.Sound.latchStep {c : Curve} {u : Change} (h : u.Sound c) :
    ∃ now, c.LatchStep u.traded u.op.supplied? now u.move u.after := by
  obtain ⟨⟨tradePrice, now, hu⟩, -⟩ := h
  exact ⟨now, hu.latchStep⟩

theorem Change.Sound.pending_iff {c : Curve} {u : Change} (h : u.Sound c) :
    u.move.isMoved = true ↔ u.after.latch = .pending := by
  obtain ⟨now, hl⟩ := h.latchStep
  exact hl.pending_iff

theorem Latch.eq_settled_iff {l : Latch} : l = .settled ↔ l ≠ .pending := by
  cases l <;> simp

/-- The latch at the end of linked changes: set if the last of them moved the
peg, and as it was if there are none. -/
theorem Linked.latch {c : Curve} {s t : State} {us : List Change} (h : Linked s us t)
    (sound : ∀ u ∈ us, u.Sound c) :
    t.latch = .pending ↔
      (∃ u, us.getLast? = some u ∧ u.move.isMoved = true) ∨ (us = [] ∧ s.latch = .pending) := by
  rcases us.eq_nil_or_concat' with rfl | ⟨first, u, rfl⟩
  · cases h
    simp
  · obtain ⟨r, -, hb, rfl⟩ := linked_append.mp h
    rw [← (sound u (by simp)).pending_iff]
    simp

/-- What a run says about peg and latch. -/
structure Pool.LatchRun (p : Pool) (ops : List Operation) : Prop where
  /-- Every change keeps to what one update says. -/
  steps : ∀ u ∈ p.history ops, ∃ now, p.curve.LatchStep u.traded u.op.supplied? now u.move u.after
  /-- The latch remembers whether the last change moved the peg. -/
  latch : (p.run ops).2.state.latch = .pending ↔
    (∃ u, (p.history ops).getLast? = some u ∧ u.move.isMoved = true) ∨
      (p.history ops = [] ∧ p.state.latch = .pending)
  /-- No operation but one that moves the peg gives another price scale. -/
  scale : ∀ first op rest, ops = first ++ op :: rest →
    ((p.run first).2.apply op).2.state.priceScale ≠ (p.run first).2.state.priceScale →
      ∃ u, (p.run first).2.change? op = some u ∧ u.move.isMoved = true
  /-- The first move of a block was paid for by profit, unless the latch was
  set when the run began. -/
  block : ∀ first u rest, p.history ops = first ++ u :: rest → u.move.isMoved = true →
    (∀ v, first.getLast? = some v → v.move.isMoved = false) →
    (first = [] → p.state.latch = .settled) →
      p.curve.ExceedsCushion u.traded u.op.supplied? u.after.profit

namespace Pool

theorem moved_of_priceScale_ne {p : Pool} {op : Operation}
    (h : (p.apply op).2.state.priceScale ≠ p.state.priceScale) :
    ∃ u, p.change? op = some u ∧ u.move.isMoved = true := by
  rcases p.apply_cases op with ⟨-, ha⟩ | ⟨u, hc, -, hb, hu, ha⟩
  · rw [ha] at h
    exact absurd rfl h
  · refine ⟨u, hc, ?_⟩
    obtain ⟨now, hl⟩ := hu.latchStep
    by_contra hm
    refine h ?_
    rw [ha, ← hb]
    exact (hl.stays (by simpa using hm)).1

/-- A change that moves the peg with the latch not set was paid for by profit. -/
theorem exceedsCushion_of_settled {c : Curve} {u : Change} (h : u.Sound c)
    (hm : u.move.isMoved = true) (hl : u.before.latch = .settled) :
    c.ExceedsCushion u.traded u.op.supplied? u.after.profit := by
  obtain ⟨now, hs⟩ := h.latchStep
  cases hmove : u.move with
  | moved old new =>
    obtain ⟨-, -, -, -, hp⟩ := hs.moved old new hmove
    exact hp.resolve_left (Latch.eq_settled_iff.mp hl)
  | unchanged | discarded =>
    rw [hmove] at hm
    cases hm

theorem latchRun (p : Pool) (ops : List Operation) : p.LatchRun ops := by
  have hlink := p.linked_history ops
  have hsound : ∀ u ∈ p.history ops, u.Sound p.curve := fun u => sound_of_mem_history
  refine ⟨fun u hu => (hsound u hu).latchStep, hlink.latch hsound,
    fun first op rest _ h => moved_of_priceScale_ne h, ?_⟩
  intro first u rest he hm hprev hfirst
  rw [he] at hlink hsound
  obtain ⟨r, hf, rfl, -⟩ := linked_append.mp hlink
  refine exceedsCushion_of_settled (hsound u (by simp)) hm (Latch.eq_settled_iff.mpr fun hp => ?_)
  -- the latch before `u` is what the changes before it have left
  rcases (hf.latch fun v hv => hsound v (by simp [hv])).mp hp with ⟨v, hv, hmv⟩ | ⟨hnil, hpend⟩
  · rw [hprev v hv] at hmv
    cases hmv
  · rw [hfirst hnil] at hpend
    cases hpend

/-- The latch machine: one update, from any state, and any run of operations. -/
theorem latch_machine :
    (∀ (c : Curve) (s : State) (tradePrice supplied : Option Float) (now : Int) (move : PegMove)
      (s' : State), c.update s tradePrice supplied now = .ok (move, s') →
        c.LatchStep s supplied now move s') ∧
      ∀ (p : Pool) (ops : List Operation), p.LatchRun ops :=
  ⟨fun _ _ _ _ _ _ _ h => (Curve.updates_of_update h).latchStep, latchRun⟩

/-- A pool with profit to spare and the oracle a tenth above the peg. -/
def ahead : Pool :=
  { even with state := { even.state with priceOracle := 1.1, totalSupply := 500 } }

theorem moves_ahead :
    ∃ old new s', ahead.curve.update ahead.state (some 1) (some 2000) 0
      = .ok (.moved old new, s') := by
  have h : (ahead.curve.update ahead.state (some 1) (some 2000) 0).toOption.any (·.1.isMoved)
      = true := by
    decide +kernel
  revert h
  generalize ahead.curve.update ahead.state (some 1) (some 2000) 0 = result
  intro h
  rcases result with fault | ⟨move, s'⟩
  · cases h
  · cases move with
    | moved old new => exact ⟨old, new, s', rfl⟩
    | unchanged | discarded => cases h

/-- The peg of that pool moves and sets the latch; as a run of one operation
the move was paid for by profit. -/
theorem latch_machine_ahead :
    ∃ new s', ahead.curve.update ahead.state (some 1) (some 2000) 0 = .ok (.moved 1 new, s') ∧
      s'.latch = .pending ∧ s'.priceScale = new ∧
      ∃ u, ahead.history [.update (some 1) (some 2000) 0] = [u] ∧ u.after = s' ∧
        ahead.curve.ExceedsCushion u.traded u.op.supplied? u.after.profit := by
  obtain ⟨old, new, s', h⟩ := moves_ahead
  have hl := latch_machine.1 _ _ _ _ _ _ _ h
  obtain ⟨rfl, rfl, -⟩ := hl.moved old new rfl
  have hh : ahead.history [.update (some 1) (some 2000) 0] =
      [⟨.update (some 1) (some 2000) 0, ahead.state, .moved ahead.state.priceScale s'.priceScale,
        s'⟩] := by
    simp only [history, change?, perform, update, h, bind, Except.bind]
    rfl
  have hrun := latch_machine.2 ahead [.update (some 1) (some 2000) 0]
  have hpaid := hrun.block [] _ [] hh rfl (by simp) (fun _ => rfl)
  exact ⟨_, s', h, hl.pending_iff.mp rfl, rfl, _, hh, rfl, hpaid⟩

end Pool

end VirtualMarket
