/-
VirtualMarket.Proofs.Market.Loss — when a loss is detected.

An update holds the virtual price that it computes against the one that is
stored.  As long as the peg stays, the stored one was computed from the same
reserves, so a second update finds it again and there is no loss.  A move of
the peg stores an invariant for reserves that were scaled to the old peg and
then rescaled, the next update solves for reserves scaled to the new peg at
once, and the two may be rounded differently: only then can an update detect a
loss that no trade has made.
-/
import VirtualMarket.Proofs.Market.Faults
import VirtualMarket.Proofs.Market.Floor
import VirtualMarket.Proofs.Market.Latch

namespace VirtualMarket

open Outcome

/-! ## Losses -/

theorem faultsIn_unadjustedInvariant (c : Curve) (x : Reserves) (supplied : Option Float) :
    FaultsIn Fault.OfSolver (c.unadjustedInvariant x supplied) := by
  cases supplied with
  | none => exact c.faultsIn_invariant x
  | some d => exact .bind (faultsIn_guardBand trivial _) fun _ => .ok d

/-- A loss that an update detects lies between the stored virtual price and the
one at the invariant that it finds. -/
theorem Curve.loss_of_update {c : Curve} {s : State} {tradePrice supplied : Option Float}
    {now : Int} {previous current : Float}
    (h : c.update s tradePrice supplied now = .error (.lossDetected previous current)) :
    ∃ d, c.unadjustedInvariant s.scaledReserves supplied = .ok d ∧ previous = s.virtualPrice ∧
      current = virtualPriceAt d s.priceScale s.totalSupply ∧ current < previous := by
  rcases Curve.error_of_update h with h | ⟨d, hd, h | h | h⟩
  · exact (faultsIn_unadjustedInvariant c _ _ _ h).elim
  · exact (Curve.faultsIn_lastPriceAfter c.faultsIn_reserve _ _ _ _ _ h).elim
  · obtain ⟨-, hl, he⟩ := State.profitAt_eq_error.mp h
    cases he
    exact ⟨d, hd, rfl, rfl, hl⟩
  · exact (c.faultsIn_invariant _ _ h).elim

/-- An update with a positive price detects the loss if the virtual price at
the invariant that it finds is below the stored one. -/
theorem Curve.update_eq_loss {c : Curve} {s : State} {price d : Float} {now : Int}
    (hd : c.invariant s.scaledReserves = .ok d) (hp : 0 < price) (hv : 0 < s.virtualPrice)
    (hl : virtualPriceAt d s.priceScale s.totalSupply < s.virtualPrice) :
    c.update s (some price) none now = .error (.lossDetected s.virtualPrice
      (virtualPriceAt d s.priceScale s.totalSupply)) := by
  have hlast : c.lastPriceAfter s.scaledReserves d s.priceScale (some price) = .ok price :=
    if_pos hp
  have hloss := State.profitAt_eq_error.mpr ⟨hv, hl, rfl⟩
  rw [Curve.update]
  simp only [Curve.unadjustedInvariant, hd, State.advanceOracle_priceScale, hlast,
    State.advanceOracle_profitAt, hloss, bind, Except.bind]

/-! ## What an update stores -/

/-- The scaled reserves for which an update solves the invariant that it
stores; with the peg moved they are rescaled from the old scale to the new. -/
def State.solvedReserves (s : State) (move : PegMove) (peg : Float) : Reserves :=
  if move.isMoved then
    { s.scaledReserves with base := s.scaledReserves.base * peg / s.priceScale }
  else s.scaledReserves

/-- The stored invariant and virtual price belong together. -/
theorem Curve.Updates.stored {c : Curve} {s s' : State} {tradePrice : Option Float} {now : Int}
    {move : PegMove} (h : c.Updates s tradePrice none now move s') (hv : 0 < s.virtualPrice) :
    c.invariant (s.solvedReserves move s'.priceScale) = .ok s'.invariant ∧
      s'.virtualPrice = virtualPriceAt s'.invariant s'.priceScale s'.totalSupply := by
  obtain ⟨oracle, time, ho⟩ := s.advanceOracle_frame now
  cases h with
  | unchanged found | discarded found =>
    refine ⟨found.invariant, ?_⟩
    rw [ho]
    rcases State.profitAt_eq_ok found.profit with ⟨-, he, -⟩ | ⟨hn, -⟩
    · exact he
    · exact absurd hv hn
  | moved found wants solved keeps =>
    rw [ho] at solved ⊢
    exact ⟨solved, rfl⟩

/-- The virtual price after a move is above one. -/
theorem Curve.Updates.virtualPrice_pos {c : Curve} {s s' : State}
    {tradePrice supplied : Option Float} {now : Int} {move : PegMove}
    (h : c.Updates s tradePrice supplied now move s') (hm : move.isMoved = true) :
    0 < s'.virtualPrice := by
  cases h with
  | unchanged | discarded => cases hm
  | moved found wants solved keeps =>
    have h1 := (keepsProfit_iff.mp keeps).1
    exact Double.lt_of_lt_of_le (by decide) (Double.le_of_lt h1)

/-- The reserves at the new peg are rounded otherwise than those for which the
invariant was solved. -/
def PegMove.Misrounds (move : PegMove) (s s' : State) : Prop :=
  move.isMoved = true ∧
    s.reserves.base * s.priceScale * s'.priceScale / s.priceScale ≠ s.reserves.base * s'.priceScale

/-- Unless rounding tells them apart, the reserves that the next update sees
are those for which the stored invariant was solved. -/
theorem Curve.Updates.solvedReserves_eq {c : Curve} {s s' : State}
    {tradePrice supplied : Option Float} {now : Int} {move : PegMove}
    (h : c.Updates s tradePrice supplied now move s') (hr : ¬ move.Misrounds s s') :
    s.solvedReserves move s'.priceScale = s'.scaledReserves := by
  unfold State.solvedReserves
  rw [State.scaledReserves.eq_def s', h.reserves]
  cases hm : move.isMoved with
  | true =>
    have hb := not_not.mp (not_and.mp hr hm)
    rw [if_pos rfl]
    exact congrArg (Reserves.mk s.reserves.quote) hb
  | false =>
    obtain ⟨hs, -⟩ := h.latchStep.stays hm
    rw [hs]
    rfl

/-! ## The next update -/

/-- After a successful update of a market with a virtual price, another update
of the same reserves detects a loss if and only if the peg has moved, the base
reserve was rounded otherwise on the way to the new peg, and the virtual price
at the invariant solved anew is below the stored one. -/
theorem loss_after_update_iff {c : Curve} {s s' : State} {tradePrice : Option Float} {now : Int}
    {move : PegMove} (hv : 0 < s.virtualPrice)
    (h : c.update s tradePrice none now = .ok (move, s')) {price : Float} (hp : 0 < price)
    (later : Int) :
    (∃ previous current,
        c.update s' (some price) none later = .error (.lossDetected previous current)) ↔
      move.Misrounds s s' ∧ ∃ d, c.invariant s'.scaledReserves = .ok d ∧
        virtualPriceAt d s'.priceScale s'.totalSupply < s'.virtualPrice := by
  have hu := Curve.updates_of_update h
  obtain ⟨hsolved, hstored⟩ := hu.stored hv
  constructor
  · rintro ⟨previous, current, hl⟩
    obtain ⟨d, hd, rfl, rfl, hlt⟩ := Curve.loss_of_update hl
    refine ⟨?_, d, hd, hlt⟩
    by_contra hr
    -- the same reserves have the same invariant, hence the same virtual price
    rw [hu.solvedReserves_eq hr] at hsolved
    obtain rfl : s'.invariant = d := Except.ok.inj (hsolved.symm.trans hd)
    rw [← hstored] at hlt
    exact Double.lt_irrefl hlt
  · rintro ⟨⟨hm, -⟩, d, hd, hlt⟩
    exact ⟨_, _, Curve.update_eq_loss hd hp (hu.virtualPrice_pos hm) hlt⟩

namespace Pool

/-- A balanced pool that has grown by half of its deposit, with the oracle a
little above the peg. -/
def grown : Pool :=
  let deposit := depositState {} ⟨1350, 900⟩ 2700 1.5 0
  ⟨{}, {}, { deposit with
    priceOracle := 1.5003
    lastPrice := 1.5003
    totalSupply := 900
    profit := 1.2247448713915892
    virtualPrice := 1.2247448713915892 }⟩

/-- Its peg moves, and the next update of the same reserves detects a loss. -/
theorem loss_grown :
    ∃ old new s', grown.curve.update grown.state (some 1.5003) none 0 = .ok (.moved old new, s') ∧
      ∃ previous current,
        grown.curve.update s' (some 1.5003) none 0 = .error (.lossDetected previous current) := by
  have h : (grown.curve.update grown.state (some 1.5003) none 0).toOption.any (fun first =>
      first.1.isMoved &&
        match grown.curve.update first.2 (some 1.5003) none 0 with
        | .error (.lossDetected ..) => true
        | _ => false) = true := by
    decide +kernel
  revert h
  rcases grown.curve.update grown.state (some 1.5003) none 0 with fault | ⟨move, s'⟩
  · intro h
    cases h
  · intro h
    simp only [Except.toOption, Option.any_some, Bool.and_eq_true] at h
    obtain ⟨hm, hl⟩ := h
    cases move with
    | moved old new =>
      refine ⟨old, new, s', rfl, ?_⟩
      split at hl
      · rename_i previous current he
        exact ⟨previous, current, he⟩
      · cases hl
    | unchanged | discarded => cases hm

/-- An update can detect a loss although no reserve has changed since the last
successful one: a valid market with a virtual price does not rule it out. -/
theorem loss_without_trade :
    ofState {} {} grown.state = .ok grown ∧ grown.state.Valid ∧ 0 < grown.state.virtualPrice ∧
      ∃ old new s',
        grown.curve.update grown.state (some 1.5003) none 0 = .ok (.moved old new, s') ∧
          s'.reserves = grown.state.reserves ∧ ∃ previous current,
            grown.curve.update s' (some 1.5003) none 0
              = .error (.lossDetected previous current) := by
  obtain ⟨old, new, s', h, hl⟩ := loss_grown
  have hb : ofState {} {} grown.state = .ok grown := by rfl
  exact ⟨hb, valid_of_ofState hb, by decide, old, new, s', h,
    (Curve.updates_of_update h).reserves, hl⟩

/-- The loss of that pool comes from the rounding of its base reserve. -/
theorem loss_after_update_iff_grown :
    ∃ old new s', grown.curve.update grown.state (some 1.5003) none 0 = .ok (.moved old new, s') ∧
      (PegMove.moved old new).Misrounds grown.state s' ∧
        ∃ d, grown.curve.invariant s'.scaledReserves = .ok d ∧
          virtualPriceAt d s'.priceScale s'.totalSupply < s'.virtualPrice := by
  obtain ⟨old, new, s', h, hl⟩ := loss_grown
  exact ⟨old, new, s', h, (loss_after_update_iff (by decide) h (by decide) 0).mp hl⟩

end Pool

end VirtualMarket
