/-
VirtualMarket.Proofs.Market.Update — the ways an update can succeed.

`Curve.update` is a sequence of stages, each of which may fail.  A successful
one has passed all of them and then left the peg, moved it, or tried a move and
discarded it.  `Curve.Updates` has one constructor for each of the three, with
everything that was checked on the way; what follows about updates is proved
from it by cases, without looking at the stages again.
-/
import VirtualMarket.Market.Peg
import VirtualMarket.Proofs.Curve.Invariant

namespace VirtualMarket

/-! ## The moving average -/

/-- Advancing the moving average touches the oracle price and its time alone. -/
theorem State.advanceOracle_frame (s : State) (now : Int) :
    ∃ oracle time, s.advanceOracle now = { s with priceOracle := oracle, lastUpdate := time } := by
  unfold State.advanceOracle
  split
  · exact ⟨_, _, rfl⟩
  · exact ⟨_, _, rfl⟩

@[simp] theorem State.advanceOracle_priceScale (s : State) (now : Int) :
    (s.advanceOracle now).priceScale = s.priceScale := by
  obtain ⟨oracle, time, h⟩ := s.advanceOracle_frame now
  rw [h]

@[simp] theorem State.advanceOracle_totalSupply (s : State) (now : Int) :
    (s.advanceOracle now).totalSupply = s.totalSupply := by
  obtain ⟨oracle, time, h⟩ := s.advanceOracle_frame now
  rw [h]

@[simp] theorem State.advanceOracle_profitAt (s : State) (now : Int) (d : Float) :
    (s.advanceOracle now).profitAt d = s.profitAt d := by
  obtain ⟨oracle, time, h⟩ := s.advanceOracle_frame now
  rw [h]
  rfl

/-- Time does not go back. -/
theorem State.advanceOracle_lastUpdate (s : State) (now : Int) :
    (s.advanceOracle now).lastUpdate = max s.lastUpdate now := by
  unfold State.advanceOracle
  split
  · rename_i h
    exact (max_eq_right h.le).symm
  · rename_i h
    exact (max_eq_left (not_lt.mp h)).symm

/-- With a clock that is not ahead of the last change nothing advances. -/
theorem State.advanceOracle_of_le {s : State} {now : Int} (h : now ≤ s.lastUpdate) :
    s.advanceOracle now = s :=
  if_neg (not_lt.mpr h)

/-- Reserves have no part in the moving average. -/
theorem State.advanceOracle_reserves (s : State) (r : Reserves) (now : Int) :
    State.advanceOracle { s with reserves := r } now =
      { s.advanceOracle now with reserves := r } := by
  unfold State.advanceOracle
  by_cases h : s.lastUpdate < now
  · rw [if_pos h, if_pos h]
  · rw [if_neg h, if_neg h]

/-! ## The profit -/

/-- Profit is counted at a virtual price that has not fallen, or afresh. -/
theorem State.profitAt_eq_ok {s : State} {d virtualPrice profit : Float}
    (h : s.profitAt d = .ok (virtualPrice, profit)) :
    (0 < s.virtualPrice ∧ virtualPrice = virtualPriceAt d s.priceScale s.totalSupply ∧
      ¬ virtualPrice < s.virtualPrice) ∨
    (¬ 0 < s.virtualPrice ∧ virtualPrice = 1 ∧ profit = 1) := by
  unfold profitAt at h
  split at h
  · rename_i hv
    dsimp only at h
    split at h
    · cases h
    · rename_i hl
      cases h
      exact .inl ⟨hv, rfl, hl⟩
  · rename_i hv
    cases h
    exact .inr ⟨hv, rfl, rfl⟩

/-- Profit is not counted if and only if there is a loss. -/
theorem State.profitAt_eq_error {s : State} {d : Float} {fault : Fault} :
    s.profitAt d = .error fault ↔
      0 < s.virtualPrice ∧ virtualPriceAt d s.priceScale s.totalSupply < s.virtualPrice ∧
        fault = .lossDetected s.virtualPrice
          (virtualPriceAt d s.priceScale s.totalSupply) := by
  unfold profitAt
  dsimp only
  constructor
  · intro h
    split at h
    · rename_i hv
      split at h
      · rename_i hl
        cases h
        exact ⟨hv, hl, rfl⟩
      · cases h
    · cases h
  · rintro ⟨hv, hl, rfl⟩
    rw [if_pos hv, if_pos hl]

/-! ## The peg -/

/-- A move is tried if the oracle is farther away than a step, there has been a
virtual price, and the latch is set or the profit exceeds the cushion. -/
theorem State.wantsMove_iff {s : State} {virtualPrice profit : Float} :
    s.wantsMove virtualPrice profit = true ↔
      s.stepFor s.distance < s.distance ∧ 0 < s.virtualPrice ∧
        (s.latch = .pending ∨ profit + 2 * s.profitCushion < virtualPrice * 2 - 1) := by
  simp [wantsMove, and_assoc]

/-! ## Successful updates -/

/-- The scaled reserves as they would be with the peg one step closer to the
oracle. -/
def State.candidateReserves (s : State) : Reserves :=
  { s.scaledReserves with base := s.scaledReserves.base * s.candidatePeg / s.priceScale }

/-- What the stages of an update find before the peg is looked at. -/
structure Curve.Finds (c : Curve) (s : State) (tradePrice supplied : Option Float)
    (d lastPrice virtualPrice profit : Float) : Prop where
  invariant : c.unadjustedInvariant s.scaledReserves supplied = .ok d
  lastPrice : c.lastPriceAfter s.scaledReserves d s.priceScale tradePrice = .ok lastPrice
  profit : s.profitAt d = .ok (virtualPrice, profit)

/-- The successful updates of a state, by what they do to the peg. -/
inductive Curve.Updates (c : Curve) (s : State) (tradePrice supplied : Option Float)
    (now : Int) : PegMove → State → Prop
  | unchanged {d lastPrice virtualPrice profit : Float}
      (found : c.Finds s tradePrice supplied d lastPrice virtualPrice profit)
      (stays : (s.advanceOracle now).wantsMove virtualPrice profit = false) :
      Updates c s tradePrice supplied now .unchanged
        ((s.advanceOracle now).settle d virtualPrice profit lastPrice)
  | moved {d lastPrice virtualPrice profit candidate : Float}
      (found : c.Finds s tradePrice supplied d lastPrice virtualPrice profit)
      (wants : (s.advanceOracle now).wantsMove virtualPrice profit = true)
      (solved : c.invariant (s.advanceOracle now).candidateReserves = .ok candidate)
      (keeps : keepsProfit
        (virtualPriceAt candidate (s.advanceOracle now).candidatePeg s.totalSupply) profit = true) :
      Updates c s tradePrice supplied now
        (.moved s.priceScale (s.advanceOracle now).candidatePeg)
        ((s.advanceOracle now).move (s.advanceOracle now).candidatePeg candidate
          (virtualPriceAt candidate (s.advanceOracle now).candidatePeg s.totalSupply) profit
          lastPrice)
  | discarded {d lastPrice virtualPrice profit candidate : Float}
      (found : c.Finds s tradePrice supplied d lastPrice virtualPrice profit)
      (wants : (s.advanceOracle now).wantsMove virtualPrice profit = true)
      (solved : c.invariant (s.advanceOracle now).candidateReserves = .ok candidate)
      (loses : keepsProfit
        (virtualPriceAt candidate (s.advanceOracle now).candidatePeg s.totalSupply) profit
          = false) :
      Updates c s tradePrice supplied now
        (.discarded (s.advanceOracle now).candidatePeg)
        ((s.advanceOracle now).settle d virtualPrice profit lastPrice)

/-- What `Curve.tryMove` does once an invariant is found for the candidate. -/
theorem Curve.tryMove_eq (c : Curve) (s : State) (d virtualPrice profit lastPrice : Float) :
    c.tryMove s d virtualPrice profit lastPrice =
      (c.invariant s.candidateReserves >>= fun moved =>
        if keepsProfit (virtualPriceAt moved s.candidatePeg s.totalSupply) profit then
          .ok (.moved s.priceScale s.candidatePeg, s.move s.candidatePeg moved
            (virtualPriceAt moved s.candidatePeg s.totalSupply) profit lastPrice)
        else .ok (.discarded s.candidatePeg, s.settle d virtualPrice profit lastPrice)) := rfl

/-- An update that succeeds does so in one of the three ways. -/
theorem Curve.updates_of_update {c : Curve} {s s' : State} {tradePrice supplied : Option Float}
    {now : Int} {move : PegMove} (h : c.update s tradePrice supplied now = .ok (move, s')) :
    c.Updates s tradePrice supplied now move s' := by
  rw [Curve.update, Outcome.bind_eq_ok] at h
  obtain ⟨d, hd, h⟩ := h
  obtain ⟨lastPrice, hl, h⟩ := Outcome.bind_eq_ok.mp h
  obtain ⟨⟨virtualPrice, profit⟩, hp, h⟩ := Outcome.bind_eq_ok.mp h
  rw [State.advanceOracle_priceScale] at hl
  rw [State.advanceOracle_profitAt] at hp
  have found : c.Finds s tradePrice supplied d lastPrice virtualPrice profit := ⟨hd, hl, hp⟩
  dsimp only at h
  split at h
  · rename_i wants
    rw [Curve.tryMove_eq, State.advanceOracle_totalSupply, State.advanceOracle_priceScale] at h
    obtain ⟨candidate, solved, h⟩ := Outcome.bind_eq_ok.mp h
    split at h
    · rename_i keeps
      cases h
      exact .moved found wants solved keeps
    · rename_i loses
      cases h
      exact .discarded found wants solved (by simpa using loses)
  · rename_i stays
    cases h
    exact .unchanged found (by simpa using stays)

/-- An update that fails does so at one of its stages. -/
theorem Curve.error_of_update {c : Curve} {s : State} {tradePrice supplied : Option Float}
    {now : Int} {fault : Fault} (h : c.update s tradePrice supplied now = .error fault) :
    c.unadjustedInvariant s.scaledReserves supplied = .error fault ∨
      ∃ d, c.unadjustedInvariant s.scaledReserves supplied = .ok d ∧
        (c.lastPriceAfter s.scaledReserves d s.priceScale tradePrice = .error fault ∨
          s.profitAt d = .error fault ∨
          c.invariant (s.advanceOracle now).candidateReserves = .error fault) := by
  rw [Curve.update, Outcome.bind_eq_error] at h
  refine h.imp_right ?_
  rintro ⟨d, hd, h⟩
  refine ⟨d, hd, ?_⟩
  rcases Outcome.bind_eq_error.mp h with h | ⟨lastPrice, -, h⟩
  · rw [State.advanceOracle_priceScale] at h
    exact .inl h
  rcases Outcome.bind_eq_error.mp h with h | ⟨⟨virtualPrice, profit⟩, -, h⟩
  · rw [State.advanceOracle_profitAt] at h
    exact .inr (.inl h)
  dsimp only at h
  split at h
  · rw [Curve.tryMove_eq] at h
    rcases Outcome.bind_eq_error.mp h with h | ⟨candidate, -, h⟩
    · exact .inr (.inr h)
    · split at h <;> cases h
  · cases h

namespace Curve.Updates

variable {c : Curve} {s s' : State} {tradePrice supplied : Option Float} {now : Int}
  {move : PegMove}

/-- An update leaves the reserves that it was called with. -/
theorem reserves (h : c.Updates s tradePrice supplied now move s') :
    s'.reserves = s.reserves := by
  obtain ⟨oracle, time, ho⟩ := s.advanceOracle_frame now
  cases h <;> rw [ho] <;> rfl

/-- The moving average and its time are as they were advanced. -/
theorem oracle (h : c.Updates s tradePrice supplied now move s') :
    s'.priceOracle = (s.advanceOracle now).priceOracle ∧
      s'.lastUpdate = (s.advanceOracle now).lastUpdate := by
  cases h <;> exact ⟨rfl, rfl⟩

/-- The update notes a positive trade price as it is. -/
theorem lastPrice {price : Float} (h : c.Updates s (some price) supplied now move s')
    (hp : 0 < price) : s'.lastPrice = price := by
  have noted {d lastPrice virtualPrice profit : Float}
      (found : c.Finds s (some price) supplied d lastPrice virtualPrice profit) :
      lastPrice = price := by
    have hl := found.lastPrice
    rw [Curve.lastPriceAfter, if_pos hp] at hl
    exact (Except.ok.inj hl).symm
  cases h with
  | unchanged found | moved found | discarded found => exact noted found

theorem finds (h : c.Updates s tradePrice supplied now move s') :
    ∃ d lastPrice virtualPrice profit,
      c.Finds s tradePrice supplied d lastPrice virtualPrice profit := by
  cases h with
  | unchanged found | moved found | discarded found => exact ⟨_, _, _, _, found⟩

end Curve.Updates

end VirtualMarket
